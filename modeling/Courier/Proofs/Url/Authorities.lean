import Courier.Proofs.Url.Hosts
import Courier.Url.Parser

set_option autoImplicit false

/-! # Authorities read again

An authority is a login, a host and a port. What reading makes sure of is collected in
`Url.Authority.Sound`: the login is written without marks, the host is read as itself, and the port
is in range and not the one that is meant anyway. From that follows that the text of an authority is
read as that authority again, however the text goes on. -/

namespace Courier

/-! ## What follows an authority -/

/-- What can follow an authority: nothing, or what begins with the mark of a path, a query or a
fragment. -/
def Url.Follows (s : List Char) : Prop :=
  ∀ c rest, s = c :: rest → c = '/' ∨ c = '?' ∨ c = '#'

section Follows

variable {s : List Char}

/-- What holds of the three marks holds of the first character. -/
theorem Url.Follows.forall_head (h : Url.Follows s) {p : Char → Bool}
    (hmarks : ['/', '?', '#'].all p = true) {c : Char} {rest : List Char} (hs : s = c :: rest) :
    p c = true := by
  refine List.all_eq_true.1 hmarks c ?_
  simpa using h c rest hs

/-- A text is told apart from what follows it by what none of the three marks is. -/
theorem Url.Follows.span_append (h : Url.Follows s) {p : Char → Bool} {front : List Char}
    (hfront : ∀ c ∈ front, p c = true) (hmarks : ['/', '?', '#'].all (fun c => !p c) = true) :
    (front ++ s).takeWhile p = front ∧ (front ++ s).dropWhile p = s := by
  rw [List.takeWhile_append_of_pos hfront, List.dropWhile_append_of_pos hfront]
  cases s with
  | nil => simp
  | cons c rest =>
    have hc : ¬ p c = true := by simpa using h.forall_head hmarks rfl
    rw [List.takeWhile_cons_of_neg hc, List.dropWhile_cons_of_neg hc, List.append_nil]
    exact ⟨rfl, rfl⟩

end Follows

/-! ## What is known of an authority -/

/-- A host in a scheme of some kind. -/
def Url.parseHost (special : Bool) (s : List Char) : Except Url.Error String :=
  if special then Host.parse s else Host.parseOther s

theorem Url.parseHost_toList {special : Bool} {s : List Char} {host : String}
    (h : Url.parseHost special s = .ok host) :
    Url.parseHost special host.toList = .ok host ∧ Host.Shape host ∧
      (special = true → host ≠ "") := by
  cases special with
  | true =>
    obtain ⟨hagain, hne, hshape⟩ := Host.parse_toList h
    exact ⟨hagain, hshape, fun _ => hne⟩
  | false =>
    obtain ⟨hagain, hshape⟩ := Host.parseOther_toList h
    exact ⟨hagain, hshape, fun hspecial => absurd hspecial (by simp)⟩

/-- What is known of an authority that has been read after a scheme. -/
structure Url.Authority.Sound (scheme : String) (a : Url.Authority) : Prop where
  user : ∀ c ∈ a.user.toList, Percent.inUserInfo c = false
  password : ∀ c ∈ a.password.toList, Percent.inUserInfo c = false
  host : Url.parseHost (Url.kindOf scheme).isSpecial a.host.toList = .ok a.host
  shape : Host.Shape a.host
  named : (Url.kindOf scheme).isSpecial = true → a.host ≠ ""
  bare : a.host = "" → a.user = "" ∧ a.password = "" ∧ a.port = none
  port : ∀ p, a.port = some p → p ≤ 65535 ∧ Url.defaultPort? scheme ≠ some p

/-! ## The port -/

theorem decimalValue_toString (n : Nat) : decimalValue (toString n).toList = n := by
  rw [Nat.toString_eq_ofList_toDigits, String.toList_ofList]
  calc decimalValue (Nat.toDigits 10 n)
      = Nat.ofDigitChars 10 (Nat.toDigits 10 n) 0 := by
        simp only [decimalValue, Nat.ofDigitChars_eq_foldl, Nat.mul_comm]
        rfl
    _ = n := Nat.ofDigitChars_toDigits (by decide) (by decide)

theorem Url.parsePort_toString {scheme : String} {p : Nat} (hp : p ≤ 65535)
    (hdefault : Url.defaultPort? scheme ≠ some p) {s : List Char} (hs : Url.Follows s) :
    Url.parsePort scheme ((toString p).toList ++ s) = .ok (some p, s) := by
  have hdigits : ∀ c ∈ (toString p).toList, c.isDigit = true := fun c => isDigit_of_mem_toString
  obtain ⟨htake, hdrop⟩ := hs.span_append hdigits (by decide)
  have hhead :
      ¬ (s.head?.map fun c => !(Url.isAnySlash c || Url.endsPath c)).getD false = true := by
    cases s with
    | nil => simp
    | cons c rest =>
      have hmark := hs.forall_head (p := fun c => Url.isAnySlash c || Url.endsPath c)
        (by decide) rfl
      simp only [List.head?_cons, Option.map_some, Option.getD_some, hmark]
      decide
  have hsome : ¬((toString p).toList.isEmpty = true ∨ Url.defaultPort? scheme = some p) := by
    simp [hdefault]
  unfold Url.parsePort
  simp only [htake, hdrop, decimalValue_toString, if_neg (Nat.not_lt.2 hp), if_neg hhead,
    if_neg hsome]

theorem Url.parsePort_some {scheme : String} {s rest : List Char} {port : Option Nat}
    (h : Url.parsePort scheme s = .ok (port, rest)) :
    ∀ p, port = some p → p ≤ 65535 ∧ Url.defaultPort? scheme ≠ some p := by
  simp only [Url.parsePort] at h
  split at h
  · exact absurd h (by simp)
  · next hle =>
    split at h
    · exact absurd h (by simp)
    · simp only [Except.ok.injEq, Prod.mk.injEq] at h
      obtain ⟨rfl, -⟩ := h
      intro p hp
      split at hp
      · exact absurd hp (by simp)
      · next hnot => exact Option.some.inj hp ▸ ⟨Nat.not_lt.1 hle, fun heq => hnot (.inr heq)⟩

/-! ## Characters in an authority -/

/-- Whether a character can stand on one side of the at sign of an authority. -/
def Url.isInner (c : Char) : Bool := 32 < c.toNat && !"#/?@\\".toList.contains c

theorem Url.isInner_of_isPlain {c : Char} (h : Url.isPlain c = true) : Url.isInner c = true := by
  simp only [Url.isPlain, Url.isInner, Bool.and_eq_true, decide_eq_true_eq, Bool.not_eq_true',
    List.contains_eq_mem, decide_eq_false_iff_not] at h ⊢
  refine ⟨h.1, fun hmem => h.2 ?_⟩
  have hsub : "#/?@\\".toList ⊆ "#/:?@[\\]".toList := by decide
  exact hsub hmem

theorem Url.isPlain_of_not_inUserInfo {c : Char} (h : Percent.inUserInfo c = false) :
    Url.isPlain c = true := by
  have hpath : Percent.inPath c = false := by
    simp only [Percent.inUserInfo, Bool.or_eq_false_iff] at h
    exact h.1.1.1.1.1.1.1.1.1.1
  have hall := Percent.forall_not_isControl
    (p := fun c => Percent.inUserInfo c || Url.isPlain c) (by decide)
    (Percent.not_isControl_of_inPath hpath)
  simpa [h] using hall

theorem Url.marks_of_isInner (special : Bool) {c : Char} (h : Url.isInner c = true) :
    c ≠ '@' ∧ Url.endsAuthority special c = false ∧ Url.isAnySlash c = false ∧
      Url.isOuter c = false := by
  simp only [Url.isInner, Bool.and_eq_true, decide_eq_true_eq, Bool.not_eq_true',
    List.contains_eq_mem, decide_eq_false_iff_not] at h
  obtain ⟨hlow, hmark⟩ := h
  have hne : ∀ d ∈ "#/?@\\".toList, c ≠ d := fun d hd heq => hmark (heq ▸ hd)
  refine ⟨hne '@' (by decide), ?_, ?_, by simpa [Url.isOuter] using hlow⟩
  · simp [Url.endsAuthority, hne '/' (by decide), hne '?' (by decide), hne '#' (by decide),
      hne '\\' (by decide)]
  · simp [Url.isAnySlash, hne '/' (by decide), hne '\\' (by decide)]

/-! ## The host -/

section SplitHost

variable (special : Bool)

theorem Url.splitHost_cons {inside : Bool} {c : Char}
    (h : ((c == ':' && !inside) || Url.endsAuthority special c) = false) (s : List Char) :
    Url.splitHost special inside (c :: s) =
      (c :: (Url.splitHost special (if c = '[' then true else c ≠ ']' && inside) s).1,
        (Url.splitHost special (if c = '[' then true else c ≠ ']' && inside) s).2) := by
  rw [Url.splitHost, if_neg (by simp [h])]

/-- What can follow a host. -/
def Url.EndsHost (rest : List Char) : Prop :=
  ∀ c tail, rest = c :: tail → c = ':' ∨ Url.endsAuthority special c = true

theorem Url.splitHost_of_ends {rest : List Char} (h : Url.EndsHost special rest) :
    Url.splitHost special false rest = ([], rest) := by
  cases rest with
  | nil => rfl
  | cons c tail =>
    rw [Url.splitHost, if_pos]
    rcases h c tail rfl with rfl | hc
    · rfl
    · simp [hc]

theorem Url.marks_of_isPlain {c : Char} (h : Url.isPlain c = true) :
    c ≠ ':' ∧ c ≠ '[' ∧ Url.endsAuthority special c = false := by
  refine ⟨?_, ?_, (Url.marks_of_isInner special (Url.isInner_of_isPlain h)).2.1⟩
  all_goals
    rintro rfl
    exact absurd h (by decide)

theorem Url.splitHost_plain {host rest : List Char} (hhost : ∀ c ∈ host, Url.isPlain c = true)
    (hrest : Url.EndsHost special rest) :
    Url.splitHost special false (host ++ rest) = (host, rest) := by
  induction host with
  | nil => exact Url.splitHost_of_ends special hrest
  | cons c host ih =>
    obtain ⟨hc, hhost⟩ := List.forall_mem_cons.1 hhost
    have hmark := Url.marks_of_isPlain special hc
    rw [List.cons_append, Url.splitHost_cons special (by simp [hmark]), if_neg hmark.2.1,
      Bool.and_false, ih hhost]

theorem Url.splitHost_inside {inner rest : List Char} (hinner : ∀ c ∈ inner, IsHexDigit c ∨ c = ':')
    (hrest : Url.EndsHost special rest) :
    Url.splitHost special true (inner ++ ']' :: rest) = (inner ++ [']'], rest) := by
  induction inner with
  | nil =>
    rw [List.nil_append, Url.splitHost_cons special (by cases special <;> decide)]
    show (']' :: (Url.splitHost special false rest).1, (Url.splitHost special false rest).2) = _
    rw [Url.splitHost_of_ends special hrest]
    rfl
  | cons c inner ih =>
    obtain ⟨hc, hinner⟩ := List.forall_mem_cons.1 hinner
    have hmark : c ≠ '[' ∧ c ≠ ']' ∧ Url.endsAuthority special c = false := by
      rcases hc with hc | rfl
      · simpa [and_assoc] using hc.of_forall
          (p := fun c => c != '[' && c != ']' && !Url.endsAuthority special c)
          (by cases special <;> decide)
      · cases special <;> decide
    rw [List.cons_append, Url.splitHost_cons special (by simp [hmark]), if_neg hmark.1]
    simp only [hmark.2.1, ne_eq, not_false_eq_true, decide_true, Bool.and_true, ih hinner,
      List.cons_append]

/-- A host is told apart from what follows it. -/
theorem Url.splitHost_shape {host : String} (h : Host.Shape host) {rest : List Char}
    (hrest : Url.EndsHost special rest) :
    Url.splitHost special false (host.toList ++ rest) = (host.toList, rest) := by
  cases h with
  | plain h => exact Url.splitHost_plain special h hrest
  | bracketed groups =>
    have hchars : ("[" ++ Ipv6.text groups ++ "]").toList ++ rest =
        '[' :: ((Ipv6.text groups).toList ++ ']' :: rest) := by
      simp
    rw [hchars, Url.splitHost_cons special (by cases special <;> decide), if_pos rfl,
      Url.splitHost_inside special (fun c => Ipv6.mem_text) hrest]
    simp

end SplitHost

/-! ## The parts of an authority

An authority is read in two steps: its last at sign ends the login, and what follows that is the
host with its port. -/

/-- What follows the last at sign. -/
def Url.afterAt (front : List Char) : List Char := (front.reverse.takeWhile (· ≠ '@')).reverse

/-- What stands before the last at sign. -/
def Url.beforeAt (front : List Char) : List Char :=
  front.take (front.length - (Url.afterAt front).length - 1)

/-- The user name and the password of an authority. -/
def Url.loginOf (front : List Char) : String × String :=
  if front.contains '@' then Url.parseLogin (Url.beforeAt front) else ("", "")

/-- The port that follows a host, if there is one, and what follows it. -/
def Url.portAfter (scheme : String) : List Char → Except Url.Error (Option Nat × List Char)
  | ':' :: rest => Url.parsePort scheme rest
  | rest => .ok (none, rest)

theorem Url.portAfter_of_ne {scheme : String} {rest : List Char} (h : ∀ tail, rest ≠ ':' :: tail) :
    Url.portAfter scheme rest = .ok (none, rest) := by
  unfold Url.portAfter
  split
  · next tail => exact absurd rfl (h tail)
  · rfl

/-- The host and the port that follow a login, and what follows them. -/
def Url.parseAddress (scheme : String) (login : String × String) (s : List Char) :
    Except Url.Error (Url.Authority × List Char) :=
  let special := (Url.kindOf scheme).isSpecial
  let (hostText, rest) := Url.splitHost special false s
  if special ∧ hostText.isEmpty then .error .emptyHost
  else do
    let host ← Url.parseHost special hostText
    if host.isEmpty ∧ rest.head? = some ':' then .error .emptyHost
    else do
      let (port, rest) ← Url.portAfter scheme rest
      if host.isEmpty ∧ (!login.1.isEmpty ∨ !login.2.isEmpty) then .error .emptyHost
      else .ok (⟨login.1, login.2, host, port⟩, rest)

theorem Url.parseAuthority_eq (scheme : String) (s : List Char) :
    Url.parseAuthority scheme s =
      let special := (Url.kindOf scheme).isSpecial
      let front := s.takeWhile fun c => !Url.endsAuthority special c
      let back := s.dropWhile fun c => !Url.endsAuthority special c
      if front.contains '@' ∧ (Url.beforeAt front).isEmpty ∧ (Url.afterAt front).isEmpty ∧
          !back.isEmpty then .error .emptyHost
      else Url.parseAddress scheme (Url.loginOf front) (Url.afterAt front ++ back) := by
  simp only [Url.parseAuthority, Url.beforeAt, Url.afterAt, Url.loginOf, Url.parseAddress, bind,
    Except.bind, pure, Except.pure, throw, throwThe, MonadExceptOf.throw]
  split
  · next h => exact (if_pos h).symm
  · next h =>
    refine Eq.trans ?_ (if_neg h).symm
    split
    · next h => exact (if_pos h).symm
    · next h =>
      refine Eq.trans ?_ (if_neg h).symm
      unfold Url.parseHost
      split
      all_goals
        split
        · rfl
        · split
          · next h => exact (if_pos h).symm
          · next h =>
            refine Eq.trans ?_ (if_neg h).symm
            split
            · next rest heq => rw [heq]; rfl
            · next hne =>
              rw [Url.portAfter_of_ne hne]
              rfl

theorem Url.afterAt_of_forall {front : List Char} (h : ∀ c ∈ front, c ≠ '@') :
    Url.afterAt front = front := by
  have hall : front.reverse.takeWhile (· ≠ '@') = front.reverse :=
    List.takeWhile_eq_self_iff.2 fun c hc => by simpa using h c (List.mem_reverse.1 hc)
  rw [Url.afterAt, hall, List.reverse_reverse]

theorem Url.afterAt_append {address : List Char} (h : ∀ c ∈ address, c ≠ '@')
    (login : List Char) : Url.afterAt (login ++ '@' :: address) = address := by
  have hall : ∀ c ∈ address.reverse, decide (c ≠ '@') = true :=
    fun c hc => by simpa using h c (List.mem_reverse.1 hc)
  have hreverse : (login ++ '@' :: address).reverse = address.reverse ++ '@' :: login.reverse := by
    simp
  rw [Url.afterAt, hreverse, List.takeWhile_append_of_pos hall,
    List.takeWhile_cons_of_neg (by simp), List.append_nil, List.reverse_reverse]

theorem Url.beforeAt_append {address : List Char} (h : ∀ c ∈ address, c ≠ '@')
    (login : List Char) : Url.beforeAt (login ++ '@' :: address) = login := by
  rw [Url.beforeAt, Url.afterAt_append h]
  have hlen : (login ++ '@' :: address).length - address.length - 1 = login.length := by
    simp
    omega
  rw [hlen, List.take_left]

/-! ## Reading an authority -/

theorem Url.not_inUserInfo_loginOf (front : List Char) :
    (∀ c ∈ (Url.loginOf front).1.toList, Percent.inUserInfo c = false) ∧
      ∀ c ∈ (Url.loginOf front).2.toList, Percent.inUserInfo c = false := by
  unfold Url.loginOf
  split
  · unfold Url.parseLogin
    simp only [String.toList_ofList]
    exact ⟨fun c => Percent.not_set_of_mem_encode (by decide) (by decide),
      fun c => Percent.not_set_of_mem_encode (by decide) (by decide)⟩
  · exact ⟨by simp, by simp⟩

theorem Url.portAfter_sound {scheme : String} {s rest : List Char} {port : Option Nat}
    (h : Url.portAfter scheme s = .ok (port, rest)) :
    (∀ p, port = some p → p ≤ 65535 ∧ Url.defaultPort? scheme ≠ some p) ∧
      (s.head? ≠ some ':' → port = none) := by
  unfold Url.portAfter at h
  split at h
  · exact ⟨Url.parsePort_some h, fun hne => absurd rfl hne⟩
  · obtain ⟨rfl, -⟩ := Prod.mk.inj (Except.ok.inj h)
    exact ⟨fun p hp => absurd hp (by simp), fun _ => rfl⟩

theorem Url.parseAddress_sound {scheme : String} {login : String × String} {s rest : List Char}
    {a : Url.Authority} (h : Url.parseAddress scheme login s = .ok (a, rest))
    (huser : ∀ c ∈ login.1.toList, Percent.inUserInfo c = false)
    (hpassword : ∀ c ∈ login.2.toList, Percent.inUserInfo c = false) : a.Sound scheme := by
  simp only [Url.parseAddress, bind, Except.bind] at h
  split at h
  · exact absurd h (by simp)
  · split at h
    · exact absurd h (by simp)
    · next host hhost =>
      split at h
      · exact absurd h (by simp)
      · next hcolon =>
        split at h
        · exact absurd h (by simp)
        · next port hport =>
          split at h
          · exact absurd h (by simp)
          · next hbare =>
            obtain ⟨rfl, rfl⟩ := Prod.mk.inj (Except.ok.inj h)
            -- An authority without a host has neither a login nor a port, or it is refused.
            obtain ⟨hagain, hshape, hnamed⟩ := Url.parseHost_toList hhost
            obtain ⟨hsome, hnone⟩ := Url.portAfter_sound hport
            refine ⟨huser, hpassword, hagain, hshape, hnamed, ?_, hsome⟩
            rintro rfl
            have hlogin : login.1 = "" ∧ login.2 = "" := by simpa using hbare
            exact ⟨hlogin.1, hlogin.2, hnone fun hhead => hcolon ⟨rfl, hhead⟩⟩

theorem Url.parseAuthority_sound {scheme : String} {s rest : List Char} {a : Url.Authority}
    (h : Url.parseAuthority scheme s = .ok (a, rest)) : a.Sound scheme := by
  rw [Url.parseAuthority_eq] at h
  simp only [] at h
  split at h
  · exact absurd h (by simp)
  · have hlogin := Url.not_inUserInfo_loginOf (s.takeWhile fun c =>
      !Url.endsAuthority (Url.kindOf scheme).isSpecial c)
    exact Url.parseAddress_sound h hlogin.1 hlogin.2

/-! ## The text of an authority -/

/-- The login of an authority, as its text has it. -/
def Url.Authority.login (a : Url.Authority) : String :=
  a.user ++ if a.password.isEmpty then "" else ":" ++ a.password

/-- The port of an authority, as its text has it. -/
def Url.Authority.portText (a : Url.Authority) : String :=
  match a.port with
  | some p => ":" ++ toString p
  | none => ""

theorem Url.Authority.text_eq (a : Url.Authority) :
    a.text = (if a.login.isEmpty then "" else a.login ++ "@") ++ a.host ++ a.portText := rfl

theorem Url.Authority.text_of_login {a : Url.Authority} (h : a.login ≠ "") :
    a.text.toList = a.login.toList ++ '@' :: (a.host.toList ++ a.portText.toList) := by
  rw [Url.Authority.text_eq, if_neg (by simpa using h)]
  simp

theorem Url.Authority.text_of_not_login {a : Url.Authority} (h : a.login = "") :
    a.text.toList = a.host.toList ++ a.portText.toList := by
  rw [Url.Authority.text_eq, if_pos (by simp [h])]
  simp

theorem Host.Shape.isInner {host : String} (h : Host.Shape host) :
    ∀ c ∈ host.toList, Url.isInner c = true := by
  cases h with
  | plain h => exact fun c hc => Url.isInner_of_isPlain (h c hc)
  | bracketed groups =>
    intro c hc
    have hc : c = '[' ∨ c ∈ (Ipv6.text groups).toList ∨ c = ']' := by simpa using hc
    rcases hc with rfl | hc | rfl
    · decide
    · rcases Ipv6.mem_text hc with hdigit | rfl
      · exact Url.isInner_of_isPlain hdigit.isPlain
      · decide
    · decide

theorem Url.Authority.isInner_portText (a : Url.Authority) :
    ∀ c ∈ a.portText.toList, Url.isInner c = true := by
  unfold Url.Authority.portText
  intro c hc
  split at hc
  · next p _ =>
    rw [String.toList_append, List.mem_append] at hc
    rcases hc with hc | hc
    · obtain rfl : c = ':' := by simpa using hc
      decide
    · exact forall_isDigit (p := Url.isInner) (by decide) (isDigit_of_mem_toString hc)
  · exact absurd hc (by simp)

section Sound

variable {scheme : String} {a : Url.Authority}

theorem Url.Authority.Sound.isInner_login (h : a.Sound scheme) :
    ∀ c ∈ a.login.toList, Url.isInner c = true := by
  unfold Url.Authority.login
  intro c hc
  rw [String.toList_append, List.mem_append] at hc
  rcases hc with hc | hc
  · exact Url.isInner_of_isPlain (Url.isPlain_of_not_inUserInfo (h.user c hc))
  · split at hc
    · exact absurd hc (by simp)
    · rw [String.toList_append, List.mem_append] at hc
      rcases hc with hc | hc
      · obtain rfl : c = ':' := by simpa using hc
        decide
      · exact Url.isInner_of_isPlain (Url.isPlain_of_not_inUserInfo (h.password c hc))

theorem Url.Authority.Sound.isInner_address (h : a.Sound scheme) :
    ∀ c ∈ a.host.toList ++ a.portText.toList, Url.isInner c = true := by
  intro c hc
  rcases List.mem_append.1 hc with hc | hc
  · exact h.shape.isInner c hc
  · exact a.isInner_portText c hc

theorem Url.Authority.Sound.login_of_not_host (h : a.Sound scheme) (hhost : a.host = "") :
    a.login = "" ∧ a.portText = "" := by
  obtain ⟨huser, hpassword, hport⟩ := h.bare hhost
  simp [Url.Authority.login, Url.Authority.portText, huser, hpassword, hport]

theorem Url.Authority.Sound.text_ne_nil (h : a.Sound scheme)
    (hspecial : (Url.kindOf scheme).isSpecial = true) : a.text.toList ≠ [] := by
  by_cases hlogin : a.login = ""
  · rw [Url.Authority.text_of_not_login hlogin]
    simp [h.named hspecial]
  · rw [Url.Authority.text_of_login hlogin]
    simp

/-- The text of an authority holds no mark that ends it, and nothing that does not count. -/
theorem Url.Authority.Sound.mem_text (h : a.Sound scheme) (special : Bool) {c : Char}
    (hc : c ∈ a.text.toList) :
    Url.endsAuthority special c = false ∧ Url.isAnySlash c = false ∧ Url.isOuter c = false := by
  by_cases hlogin : a.login = ""
  · rw [Url.Authority.text_of_not_login hlogin] at hc
    exact (Url.marks_of_isInner special (h.isInner_address c hc)).2
  · rw [Url.Authority.text_of_login hlogin, List.mem_append, List.mem_cons] at hc
    rcases hc with hc | rfl | hc
    · exact (Url.marks_of_isInner special (h.isInner_login c hc)).2
    · cases special <;> decide
    · exact (Url.marks_of_isInner special (h.isInner_address c hc)).2

end Sound

/-! ## Reading the text of an authority -/

section Reading

variable {scheme : String} {a : Url.Authority} {s : List Char}

theorem Url.portAfter_text (h : a.Sound scheme) (hs : Url.Follows s) :
    Url.portAfter scheme (a.portText.toList ++ s) = .ok (a.port, s) := by
  unfold Url.Authority.portText
  cases hport : a.port with
  | none =>
    refine Url.portAfter_of_ne fun tail htail => ?_
    exact absurd (hs.forall_head (p := (· != ':')) (by decide) htail) (by decide)
  | some p =>
    obtain ⟨hle, hdefault⟩ := h.port p hport
    simpa [Url.portAfter] using Url.parsePort_toString hle hdefault hs

theorem Url.Follows.head?_ne_colon (h : Url.Follows s) : s.head? ≠ some ':' := by
  cases s with
  | nil => simp
  | cons c rest => simpa using h.forall_head (p := (· != ':')) (by decide) rfl

theorem Url.endsHost_portText (special : Bool) (a : Url.Authority) (hs : Url.Follows s) :
    Url.EndsHost special (a.portText.toList ++ s) := by
  unfold Url.Authority.portText
  cases a.port with
  | none => exact fun c tail hc => .inr (hs.forall_head rfl hc)
  | some p =>
    intro c tail hc
    have hcolon : ':' :: ((toString p).toList ++ s) = c :: tail := by simpa using hc
    exact .inl (List.cons.inj hcolon).1.symm

theorem Url.parseAddress_text (h : a.Sound scheme) (hs : Url.Follows s) :
    Url.parseAddress scheme (a.user, a.password) (a.host.toList ++ a.portText.toList ++ s) =
      .ok (a, s) := by
  have hsplit := Url.splitHost_shape (Url.kindOf scheme).isSpecial h.shape
    (Url.endsHost_portText _ a hs)
  have hnamed : ¬ ((Url.kindOf scheme).isSpecial = true ∧ a.host.toList.isEmpty = true) := by
    rintro ⟨hspecial, hempty⟩
    exact h.named hspecial (by simpa using hempty)
  have hcolon : ¬ (a.host.isEmpty = true ∧ (a.portText.toList ++ s).head? = some ':') := by
    rintro ⟨hempty, hhead⟩
    rw [(h.login_of_not_host (by simpa using hempty)).2] at hhead
    exact hs.head?_ne_colon hhead
  have hbare :
      ¬ (a.host.isEmpty = true ∧ ((!a.user.isEmpty) = true ∨ (!a.password.isEmpty) = true)) := by
    rintro ⟨hempty, hsome⟩
    obtain ⟨huser, hpassword, -⟩ := h.bare (by simpa using hempty)
    simp [huser, hpassword] at hsome
  rw [List.append_assoc]
  unfold Url.parseAddress
  simp only [hsplit, if_neg hnamed, h.host, bind, Except.bind, if_neg hcolon,
    Url.portAfter_text h hs, if_neg hbare]

theorem Url.Authority.Sound.parseLogin (h : a.Sound scheme) :
    Url.parseLogin a.login.toList = (a.user, a.password) := by
  have huser : ∀ c ∈ a.user.toList, decide (c ≠ ':') = true := by
    intro c hc
    rw [decide_eq_true_eq]
    rintro rfl
    exact absurd (h.user ':' hc) (by decide)
  have hlogin : a.login.toList = a.user.toList ++
      if a.password.isEmpty then [] else ':' :: a.password.toList := by
    unfold Url.Authority.login
    split <;> simp
  have hsplit : (a.login.toList.takeWhile fun c => decide (c ≠ ':')) = a.user.toList ∧
      (a.login.toList.dropWhile fun c => decide (c ≠ ':')).drop 1 = a.password.toList := by
    rw [hlogin, List.takeWhile_append_of_pos huser, List.dropWhile_append_of_pos huser]
    split
    · next hempty =>
      have hnone : a.password = "" := by simpa using hempty
      simp [hnone]
    · simp
  unfold Url.parseLogin
  dsimp only
  rw [hsplit.1, hsplit.2, Percent.encode_of_forall h.user, Percent.encode_of_forall h.password,
    String.ofList_toList, String.ofList_toList]

theorem Url.parseAuthority_text (h : a.Sound scheme) (hs : Url.Follows s) :
    Url.parseAuthority scheme (a.text.toList ++ s) = .ok (a, s) := by
  have hinside : ∀ c ∈ a.text.toList,
      (!Url.endsAuthority (Url.kindOf scheme).isSpecial c) = true :=
    fun c hc => by simp [(h.mem_text _ hc).1]
  have hat : ∀ c ∈ a.host.toList ++ a.portText.toList, c ≠ '@' :=
    fun c hc => (Url.marks_of_isInner false (h.isInner_address c hc)).1
  obtain ⟨htake, hdrop⟩ := hs.span_append hinside rfl
  rw [Url.parseAuthority_eq]
  simp only [htake, hdrop]
  -- Without a login the text holds no at sign; with one its last at sign ends the login.
  by_cases hlogin : a.login = ""
  · have hnone : ¬ (a.host.toList ++ a.portText.toList).contains '@' = true := by
      rw [List.contains_iff_mem]
      exact fun hmem => hat '@' hmem rfl
    have hempty : ("", "") = (a.user, a.password) := by
      rw [← h.parseLogin, hlogin]
      rfl
    rw [Url.Authority.text_of_not_login hlogin, Url.afterAt_of_forall hat,
      if_neg fun hcheck => hnone hcheck.1, Url.loginOf, if_neg hnone, hempty]
    exact Url.parseAddress_text h hs
  · have hsome : (a.login.toList ++ '@' :: (a.host.toList ++ a.portText.toList)).contains '@' =
        true := by
      simp
    rw [Url.Authority.text_of_login hlogin, Url.afterAt_append hat, Url.beforeAt_append hat,
      if_neg fun hcheck => hlogin (by simpa using hcheck.2.1), Url.loginOf, if_pos hsome,
      Url.beforeAt_append hat, h.parseLogin]
    exact Url.parseAddress_text h hs

end Reading

end Courier
