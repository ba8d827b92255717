import Courier.Number.Integer
import Courier.Url.Path

set_option autoImplicit false

/-! # Reading URLs

A text is read as a URL of its own, or relative to another one. Blanks and control characters at its
ends do not count, nor do tabs and line breaks anywhere. -/

namespace Courier

/-! ## Pieces of text -/

/-- Whether a character is a blank or a control character. -/
def Url.isOuter (c : Char) : Bool := c.toNat ≤ 32

/-- Whether a character is a tab or a line break, which do not count. -/
def Url.isIgnored (c : Char) : Bool := c == '\t' || c == '\n' || c == '\r'

/-- The characters that count. -/
def Url.relevant (text : String) : List Char :=
  (((text.toList.dropWhile Url.isOuter).reverse.dropWhile Url.isOuter).reverse).filter
    fun c => !Url.isIgnored c

/-- Whether a character is a slash of either direction. -/
def Url.isAnySlash (c : Char) : Bool := c == '/' || c == '\\'

/-- Whether a character ends an authority. -/
def Url.endsAuthority (special : Bool) (c : Char) : Bool :=
  c == '/' || c == '?' || c == '#' || (special && c == '\\')

/-- Whether a character ends a path. -/
def Url.endsPath (c : Char) : Bool := c == '?' || c == '#'

/-- The scheme of a text and what follows its colon. -/
def Url.splitScheme? (s : List Char) : Option (String × List Char) :=
  let isPart (c : Char) : Bool := c.isAlphanum || c == '+' || c == '-' || c == '.'
  match s with
  | c :: _ =>
    match c.isAlpha, s.dropWhile isPart with
    | true, ':' :: rest => some (String.ofList ((s.takeWhile isPart).map Char.toLower), rest)
    | _, _ => none
  | [] => none

/-- The query and the fragment of what follows a path. -/
def Url.parseTail (special : Bool) (s : List Char) : Option String × Option String :=
  let fragment (s : List Char) : String := String.ofList (Percent.encode Percent.inFragment s)
  match s with
  | '?' :: s =>
    let query := String.ofList (Percent.encode (Percent.inQuery special) (s.takeWhile (· ≠ '#')))
    match s.dropWhile (· ≠ '#') with
    | _ :: f => (some query, some (fragment f))
    | [] => (some query, none)
  | '#' :: f => (none, some (fragment f))
  | _ => (none, none)

/-! ## Authority -/

/-- The host and what follows it: a colon outside brackets ends it. -/
def Url.splitHost (special : Bool) : Bool → List Char → List Char × List Char
  | _, [] => ([], [])
  | inside, c :: s =>
    if (c == ':' && !inside) || Url.endsAuthority special c then ([], c :: s)
    else
      let (host, rest) := Url.splitHost special (if c = '[' then true else c ≠ ']' && inside) s
      (c :: host, rest)

/-- The port after a colon, and what follows it. The default port of the scheme counts as none. -/
def Url.parsePort (scheme : String) (s : List Char) :
    Except Url.Error (Option Nat × List Char) :=
  let digits := s.takeWhile Char.isDigit
  let rest := s.dropWhile Char.isDigit
  let port := decimalValue digits
  if 65535 < port then .error .invalidPort
  else if (rest.head?.map fun c => !(Url.isAnySlash c || Url.endsPath c)).getD false then
    .error .invalidPort
  else
    .ok (if digits.isEmpty ∨ Url.defaultPort? scheme = some port then none else some port, rest)

/-- The user name and the password before an at sign. -/
def Url.parseLogin (s : List Char) : String × String :=
  let encode (s : List Char) : String := String.ofList (Percent.encode Percent.inUserInfo s)
  (encode (s.takeWhile (· ≠ ':')), encode ((s.dropWhile (· ≠ ':')).drop 1))

/-- The authority after two slashes, and what follows it. -/
def Url.parseAuthority (scheme : String) (s : List Char) :
    Except Url.Error (Url.Authority × List Char) := do
  let special := (Url.kindOf scheme).isSpecial
  let front := s.takeWhile fun c => !Url.endsAuthority special c
  let back := s.dropWhile fun c => !Url.endsAuthority special c
  let afterAt := (front.reverse.takeWhile (· ≠ '@')).reverse
  let hasAt := front.contains '@'
  let login := front.take (front.length - afterAt.length - 1)
  if hasAt ∧ login.isEmpty ∧ afterAt.isEmpty ∧ !back.isEmpty then throw .emptyHost
  let (user, password) := if hasAt then Url.parseLogin login else ("", "")
  let (hostText, rest) := Url.splitHost special false (afterAt ++ back)
  if special ∧ hostText.isEmpty then throw .emptyHost
  let host ← if special then Host.parse hostText else Host.parseOther hostText
  if host.isEmpty ∧ rest.head? = some ':' then throw .emptyHost
  let (port, rest) ←
    match rest with
    | ':' :: rest => Url.parsePort scheme rest
    | rest => pure (none, rest)
  if host.isEmpty ∧ (!user.isEmpty ∨ !password.isEmpty) then throw .emptyHost
  pure (⟨user, password, host, port⟩, rest)

/-! ## Whole URLs -/

/-- A URL whose path follows what has been read; the mark is set where the path would otherwise be
    read as an authority. -/
def Url.withPath (scheme : String) (authority : Option Url.Authority) (segments : List String)
    (tail : List Char) : Url :=
  let (query, fragment) := Url.parseTail (Url.kindOf scheme).isSpecial tail
  let marked := authority.isNone && 1 < segments.length && segments.head? == some ""
  ⟨scheme, authority, .rooted segments, marked, query, fragment⟩

/-- What follows the two slashes of a scheme other than that of files. -/
def Url.parseAfterSlashes (scheme : String) (s : List Char) : Except Url.Error Url := do
  let (authority, rest) ← Url.parseAuthority scheme s
  let path := rest.takeWhile fun c => !Url.endsPath c
  pure (Url.withPath scheme (some authority) (Path.parse (Url.kindOf scheme) path)
    (rest.dropWhile fun c => !Url.endsPath c))

/-- What follows the colon of a scheme that is neither of the web nor that of files. -/
def Url.parseOther (scheme : String) (s : List Char) : Except Url.Error Url :=
  match s with
  | '/' :: '/' :: s => Url.parseAfterSlashes scheme s
  | s =>
    let path := s.takeWhile fun c => !Url.endsPath c
    let tail := s.dropWhile fun c => !Url.endsPath c
    match path with
    | '/' :: path => .ok (Url.withPath scheme none (Path.follow .other [] path) tail)
    | path =>
      let (query, fragment) := Url.parseTail false tail
      let text := String.ofList (Percent.encode Percent.isControl path)
      .ok ⟨scheme, none, .rootless text, false, query, fragment⟩

/-- The segments of a path. -/
def Url.segments (u : Url) : List String :=
  match u.path with
  | .rootless _ => []
  | .rooted segments => segments

/-- What a relative text without a path of its own names: the base with a new query or fragment. -/
def Url.withTail (base : Url) (s : List Char) : Url :=
  match s, Url.parseTail base.kind.isSpecial s with
  | [], _ => { base with fragment := none }
  | '#' :: _, (_, fragment) => { base with fragment := fragment }
  | _, (query, fragment) => { base with query := query, fragment := fragment }

/-- A text relative to a base whose path has segments. -/
def Url.parseRelative (base : Url) (s : List Char) : Except Url.Error Url :=
  let path := s.takeWhile fun c => !Url.endsPath c
  let tail := s.dropWhile fun c => !Url.endsPath c
  match path with
  | [] => .ok (base.withTail s)
  | c :: rest =>
    if Url.isAnySlash c then
      match s with
      | '/' :: '/' :: s => Url.parseAfterSlashes base.scheme s
      | s =>
        if (rest.head?.map Url.isAnySlash).getD false then
          Url.parseAfterSlashes base.scheme (s.dropWhile Url.isAnySlash)
        else .ok (Url.withPath base.scheme base.authority (Path.follow base.kind [] rest) tail)
    else
      let done := base.segments.dropLast
      .ok (Url.withPath base.scheme base.authority (Path.follow base.kind done path) tail)

/-! ## Files -/

/-- Whether a text begins with a segment that names a drive. -/
def Url.startsWithDrive (s : List Char) : Bool :=
  Path.isDrive (s.take 2) &&
    (match s.drop 2 with
      | [] => true
      | c :: _ => Url.isAnySlash c || Url.endsPath c)

/-- A file URL with a host. -/
def Url.fileAt (host : String) (segments : List String) (tail : List Char) : Url :=
  Url.withPath "file" (some ⟨"", "", host, none⟩) segments tail

/-- Whether a path of a file has a segment that names a drive, so that no host is kept. -/
def Url.namesDrive (path : List Char) : Bool :=
  (splitAll Url.isAnySlash path).any fun seg => Path.isDrive (Percent.encode Percent.inPath seg)

/-- What follows the two slashes of a file URL. -/
def Url.parseFileHost (s : List Char) : Except Url.Error Url := do
  let endsHost (c : Char) : Bool := Url.isAnySlash c || Url.endsPath c
  let hostText := s.takeWhile fun c => !endsHost c
  let isDrive := Path.isDrive hostText
  let rest := if isDrive then s else s.dropWhile fun c => !endsHost c
  let path := rest.takeWhile fun c => !Url.endsPath c
  let tail := rest.dropWhile fun c => !Url.endsPath c
  let host ←
    if isDrive ∨ hostText.isEmpty then pure ""
    else do
      let host ← Host.parse hostText
      pure (if host = "localhost" then "" else host)
  let host := if Url.namesDrive path then "" else host
  pure (Url.fileAt host (Path.parse .file path) tail)

/-- What follows the colon of a file URL, or a text relative to one. -/
def Url.parseFile (base : Option Url) (s : List Char) : Except Url.Error Url :=
  let path := s.takeWhile fun c => !Url.endsPath c
  let tail := s.dropWhile fun c => !Url.endsPath c
  match path with
  | c :: rest =>
    if Url.isAnySlash c then
      match rest with
      | d :: _ =>
        if Url.isAnySlash d then Url.parseFileHost (s.drop 2)
        else .ok (fromRoot rest tail)
      | [] => .ok (fromRoot rest tail)
    else
      match base with
      | some base =>
        if Url.startsWithDrive s then .ok (Url.fileAt "" (Path.follow .file [] path) tail)
        else
          let last := (base.segments.getLast?.getD "").toList
          let done :=
            if Path.isDrive last ∧ last.getLast? = some ':' then base.segments
            else base.segments.dropLast
          .ok (Url.withPath "file" base.authority (Path.follow .file done path) tail)
      | none => .ok (Url.fileAt "" (Path.follow .file [] path) tail)
  | [] =>
    match base with
    | some base => .ok (base.withTail s)
    | none => .ok (Url.fileAt "" [""] tail)
where
  /-- The path from the root of the base: its drive and its host are kept. -/
  fromRoot (rest tail : List Char) : Url :=
    let inherited : Option (String × List String) :=
      match base with
      | some base =>
        let first := (base.segments.head?.getD "").toList
        if Url.startsWithDrive rest then none
        else if Path.isDrive first ∧ first.getLast? = some ':' then
          some ("", [String.ofList first])
        else some ((base.authority.map Url.Authority.host).getD "", [])
      | none => none
    let (host, done) := inherited.getD ("", [])
    Url.fileAt host (Path.follow .file done rest) tail

/-! ## Entry points -/

/-- What follows the scheme of a text. -/
def Url.parseWithScheme (base : Option Url) (scheme : String) (s : List Char) :
    Except Url.Error Url :=
  match Url.kindOf scheme with
  | .file => Url.parseFile (base.filter (·.scheme = "file")) s
  | .web =>
    let slashes := s.takeWhile Url.isAnySlash
    match base with
    | some b =>
      if slashes.length < 2 ∧ b.scheme = scheme then Url.parseRelative b s
      else Url.parseAfterSlashes scheme (s.dropWhile Url.isAnySlash)
    | none => Url.parseAfterSlashes scheme (s.dropWhile Url.isAnySlash)
  | .other => Url.parseOther scheme s

/-- Reads a text as a URL, relative to a base if there is one. -/
def Url.parseFrom (base : Option Url) (text : String) : Except Url.Error Url :=
  let s := Url.relevant text
  match Url.splitScheme? s with
  | some (scheme, rest) => Url.parseWithScheme base scheme rest
  | none =>
    match base with
    | none => .error .noBase
    | some base =>
      if s.head? = some '#' then .ok (base.withTail s)
      else
        match base.path with
        | .rootless _ => .error .rootlessBase
        | .rooted _ =>
          if base.kind = .file then Url.parseFile (some base) s else Url.parseRelative base s

/-- Reads a text as a URL of its own. -/
def Url.parse (text : String) : Except Url.Error Url := Url.parseFrom none text

/-- Reads a text relative to a URL. -/
def Url.join (base : Url) (text : String) : Except Url.Error Url := Url.parseFrom (some base) text

end Courier
