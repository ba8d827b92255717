import Courier.Proofs.Json.Positional
import Courier.Proofs.Judgement.Classification
import Courier.Service.TokenFile
import Mathlib

set_option autoImplicit false

/-! # Shapes that are recognized

A description of a failure, the state of an operation and a token are written as objects. Their
readers look for records, though, and a record may be an array of its fields as well. So there are
other texts than objects that they recognize, and this file says which ones: an array that lists
what is looked for, `ListsFailure`, `ListsState` and `ListsToken`.

The main statement is `shapes_recognized`: a text that is no object is recognized exactly if it is
such an array, and is left alone otherwise. -/

namespace Courier

variable {c : Bytes}

/-! ## Arrays that list what is looked for -/

/-- The description that some items are: a code, then a message, then a list of details or `null`.
    What comes after the code may be left out from the end. -/
def ServiceError.ofItems? : List Json → Option ServiceError
  | [.string code] => some ⟨code, "", none⟩
  | [.string code, .string message] => some ⟨code, message, none⟩
  | [.string code, .string message, .null] => some ⟨code, message, none⟩
  | [.string code, .string message, .array details] => some ⟨code, message, some details⟩
  | _ => none

/-- An array that describes a failure with a code that is not empty: its only item is the
    description, or its items are. -/
def ListsFailure (c : Bytes) (service : ServiceError) : Prop :=
  service.code ≠ "" ∧
    (Json.decode (Json.readList ServiceError.readJson) c = .ok [service] ∨
      ∃ items, Json.decode Json.readAny c = .ok (.array items) ∧
        ServiceError.ofItems? items = some service)

/-- An array whose only item names the state of an operation. -/
def ListsState (c : Bytes) (status : OperationStatus) : Prop :=
  ∃ name, Json.decode Json.readAny c = .ok (.array [.string name]) ∧
    OperationStatus.parse? name = some status

/-- An array of texts, at most seven, that are the first ones of a token. The others are empty. -/
def ListsToken (c : Bytes) (token : Token) : Prop :=
  ∃ texts, Json.decode (Json.readList Json.readText) c = .ok texts ∧
    token.fields.map Prod.snd = texts.rightpad 7 ""

/-! ## Descriptions -/

/-- The fields of a description. -/
def ServiceError.slots : List (Json.Slot ServiceError Json) :=
  [.of "code" .required Json.readText Json.text? fun e code => { e with code := code },
    .of "message" .defaulted Json.readText Json.text?
      fun e message => { e with message := message },
    .of "details" .defaulted (Json.readOptional (Json.readList Json.readAny))
      (Json.orNull? Json.items?) fun e details => { e with details := details }]

theorem ServiceError.slots_agree : ∀ slot ∈ ServiceError.slots, slot.Agrees Json.readAny := by
  intro slot hslot
  simp only [ServiceError.slots, List.mem_cons, List.not_mem_nil, or_false] at hslot
  rcases hslot with rfl | rfl | rfl
  · exact Json.Slot.agrees_of Json.readText_views _ _ _
  · exact Json.Slot.agrees_of Json.readText_views _ _ _
  · exact Json.Slot.agrees_of Json.readItems_views.optional _ _ _

theorem ServiceError.fill_slots (items : List Json) :
    Json.fill ServiceError.slots items ⟨"", "", none⟩ = ServiceError.ofItems? items := by
  rcases items with - | ⟨code, rest⟩
  · rfl
  cases code with
  | string code =>
    rcases rest with - | ⟨message, rest⟩
    · rfl
    cases message with
    | string message =>
      rcases rest with - | ⟨details, rest⟩
      · rfl
      cases details with
      | null => cases rest <;> rfl
      | array details => cases rest <;> rfl
      | _ => rfl
    | _ => rfl
  | _ => rfl

/-- Of the texts that are no object, those are a description whose items are one. -/
theorem ServiceError.decode_readJson_iff (other : ¬Json.IsObjectText c) {service : ServiceError} :
    Json.decode ServiceError.readJson c = .ok service ↔
      ∃ items, Json.decode Json.readAny c = .ok (.array items) ∧
        ServiceError.ofItems? items = some service := by
  refine (Json.decode_readRecord_iff Json.readAny_sound ServiceError.slots_agree other).trans ?_
  simp only [ServiceError.fill_slots, Json.decode_array_iff]

theorem ServiceError.soundFields :
    Json.SoundFields (ServiceError.slots.map Json.Slot.field) :=
  Json.Slot.soundFields Json.readAny_sound ServiceError.slots_agree

theorem ServiceError.readJson_sound : ServiceError.readJson.Sound :=
  Json.Reader.Sound.record ServiceError.soundFields _

/-- An array whose only item is a description has no text as its first item. -/
theorem ServiceError.ofItems?_eq_none_of_only {e : ServiceError} {items : List Json}
    (only : Json.decode (Json.readList ServiceError.readJson) c = .ok [e])
    (array : Json.decode Json.readAny c = .ok (.array items)) :
    ServiceError.ofItems? items = none := by
  rcases items with - | ⟨v, rest⟩
  · rfl
  obtain ⟨u, s, t, heq, hnext, hread⟩ := Json.first_of_decode only
  obtain ⟨u', s', t', heq', hnext', hany⟩ := Json.first_of_decode (Json.decode_array_iff.1 array)
  obtain rfl := (List.cons.inj (heq.symm.trans heq')).2
  obtain rfl := Option.some.inj (Except.ok.inj (hnext.symm.trans hnext'))
  cases v with
  | string code =>
    obtain ⟨w, hquote⟩ := Json.front_of_readAny hany rfl
    rcases Json.spells_of_readRecord ServiceError.soundFields hread with ⟨x, hx, -⟩ | ⟨x, hx, -⟩
    · exact absurd (List.cons.inj (hquote.symm.trans hx)).1 (by decide)
    · exact absurd (List.cons.inj (hquote.symm.trans hx)).1 (by decide)
  | _ => rfl

/-- What a text that is no object describes, it lists. -/
theorem describes_iff_listsFailure (other : ¬Json.IsObjectText c) {service : ServiceError} :
    Describes c service ↔ ListsFailure c service := by
  have envelope : ∀ e, Json.decode ServiceError.readEnvelope c = .ok e ↔
      Json.decode (Json.readList ServiceError.readJson) c = .ok [e] := fun e =>
    Json.decode_single_iff ServiceError.readJson_sound (by decide) other
  unfold Describes ListsFailure
  simp only [envelope, ne_eq, ServiceError.decode_readJson_iff other]
  refine and_congr_right fun _ => or_congr_right ?_
  constructor
  · rintro ⟨-, items⟩
    exact items
  · rintro ⟨items, array, hitems⟩
    refine ⟨fun e only => ?_, items, array, hitems⟩
    rw [ServiceError.ofItems?_eq_none_of_only only array] at hitems
    exact absurd hitems (by simp)

/-! ## States -/

/-- The only field of a state. -/
def OperationStatus.slots : List (Json.Slot (Option String) Json) :=
  [.of "status" .optional (Json.readOptional Json.readText) (Json.orNull? Json.text?)
    fun _ name => name]

theorem OperationStatus.slots_agree : ∀ slot ∈ OperationStatus.slots, slot.Agrees Json.readAny := by
  intro slot hslot
  obtain rfl := List.mem_singleton.1 hslot
  exact Json.Slot.agrees_of Json.readText_views.optional _ _ _

theorem OperationStatus.fill_slots_iff {items : List Json} {name : String} :
    Json.fill OperationStatus.slots items none = some (some name) ↔ items = [.string name] := by
  rcases items with - | ⟨v, - | ⟨v', rest⟩⟩
  · simp [Json.fill, OperationStatus.slots, Json.Slot.of, Json.Field.of]
  · cases v <;> simp [Json.fill, OperationStatus.slots, Json.Slot.of, Json.orNull?, Json.text?]
  · cases v <;> simp [Json.fill, OperationStatus.slots, Json.Slot.of, Json.orNull?, Json.text?]

/-- The state that a text names, if it is read for one. -/
def OperationStatus.named? (c : Bytes) : Option OperationStatus :=
  ((Json.decode OperationStatus.readName c).toOption.bind id).bind OperationStatus.parse?

theorem toOption_eq_some_iff {ε α : Type} {x : Except ε α} {a : α} :
    x.toOption = some a ↔ x = .ok a := by
  cases x <;> simp [Except.toOption]

/-- The state that a text names that is no object, it lists. -/
theorem OperationStatus.named?_eq_some_iff (other : ¬Json.IsObjectText c)
    {status : OperationStatus} :
    OperationStatus.named? c = some status ↔ ListsState c status := by
  have read : ∀ name, Json.decode OperationStatus.readName c = .ok (some name) ↔
      Json.decode Json.readAny c = .ok (.array [.string name]) := by
    intro name
    refine
      (Json.decode_readRecord_iff Json.readAny_sound OperationStatus.slots_agree other).trans ?_
    simp only [OperationStatus.fill_slots_iff, Json.decode_array_iff, exists_eq_right]
  unfold OperationStatus.named? ListsState
  simp only [Option.bind_eq_some_iff, toOption_eq_some_iff, id_eq, exists_eq_right, read]

/-! ## Tokens -/

/-- The fields of a token. -/
def Token.slots : List (Json.Slot Token String) :=
  [.of "access_token" .defaulted Json.readText some fun t s => { t with accessToken := s },
    .of "refresh_token" .defaulted Json.readText some fun t s => { t with refreshToken := s },
    .of "expires_in" .defaulted Json.readText some fun t s => { t with expiresIn := s },
    .of "expires_on" .defaulted Json.readText some fun t s => { t with expiresOn := s },
    .of "not_before" .defaulted Json.readText some fun t s => { t with notBefore := s },
    .of "resource" .defaulted Json.readText some fun t s => { t with resource := s },
    .of "token_type" .defaulted Json.readText some fun t s => { t with tokenType := s }]

theorem Token.slots_agree : ∀ slot ∈ Token.slots, slot.Agrees Json.readText := by
  intro slot hslot
  simp only [Token.slots, List.mem_cons, List.not_mem_nil, or_false] at hslot
  rcases hslot with rfl | rfl | rfl | rfl | rfl | rfl | rfl <;>
    exact Json.Slot.agrees_of (Json.Reader.views_self Json.readText) _ _ _

theorem Token.fill_slots_iff {texts : List String} {token : Token} :
    Json.fill Token.slots texts Token.empty = some token ↔
      token.fields.map Prod.snd = texts.rightpad 7 "" := by
  obtain ⟨access, refresh, expiresIn, expiresOn, notBefore, resource, tokenType⟩ := token
  rcases texts with - | ⟨a, - | ⟨b, - | ⟨d, - | ⟨e, - | ⟨f, - | ⟨g, - | ⟨h, - | ⟨i, rest⟩⟩⟩⟩⟩⟩⟩⟩
  all_goals
    simp [Json.fill, Token.slots, Json.Slot.of, Json.Field.of, Token.empty, Token.fields, eq_comm]

/-- The token that a text holds that is no object, it lists. -/
theorem Token.decode_readJson_iff (other : ¬Json.IsObjectText c) {token : Token} :
    Json.decode Token.readJson c = .ok token ↔ ListsToken c token := by
  refine (Json.decode_readRecord_iff Json.readText_sound Token.slots_agree other).trans ?_
  simp only [Token.fill_slots_iff, ListsToken]

/-! ## Texts that are no object -/

/-- What has been read into memory can be read again. -/
theorem Response.content_buffered {r : Response} {content : Bytes} (h : r.content = .ok content) :
    (r.buffered content).content = .ok content := by
  obtain ⟨status, headers, body⟩ := r
  cases body with
  | none => exact h
  | some b => rfl

theorem Response.bufferBody_eq {r : Response} {content : Bytes} (h : r.content = .ok content)
    (w : World) : ∃ w', r.bufferBody w = ((.ok content, r.buffered content), w') :=
  ⟨_, Prod.ext (Response.bufferBody_ok h w) rfl⟩

theorem describeFailure_shapes (other : ¬Json.IsObjectText c) {h : Handling}
    (content : h.response.content = .ok c) (w : World) :
    ∃ result w', describeFailure h w =
        ((result, { h with response := h.response.buffered c }), w') ∧
      ((∀ service, ¬ListsFailure c service) → result = .ok ()) ∧
      ∀ service, ListsFailure c service →
        ∃ e, result = .error (.service e) ∧ e.Tells h.response service := by
  obtain ⟨w', hbuffer⟩ := Response.bufferBody_eq content w
  have lists : ∀ service, ServiceError.ofBody? c = some service ↔ ListsFailure c service :=
    fun service => ofBody?_eq_some_iff.trans (describes_iff_listsFailure other)
  dsimp only [describeFailure, Act.bind_apply]
  rw [hbuffer]
  dsimp only
  cases hfound : ServiceError.ofBody? c with
  | some service =>
    refine ⟨_, w', rfl, fun hnone => ?_, fun listed hlisted => ?_⟩
    · exact absurd ((lists service).1 hfound) (hnone service)
    · obtain rfl : listed = service :=
        Option.some.inj (((lists listed).2 hlisted).symm.trans hfound)
      exact ⟨_, rfl, RequestError.described_tells h.response _ listed⟩
  | none =>
    refine ⟨_, _, rfl, fun _ => rfl, fun listed hlisted => ?_⟩
    exact absurd (((lists listed).2 hlisted).symm.trans hfound) (by simp)

theorem OperationStatus.ofResponse_shapes (other : ¬Json.IsObjectText c) {r : Response}
    (content : r.content = .ok c) (w : World) :
    ∃ status w', OperationStatus.ofResponse r w = ((.ok status, r.buffered c), w') ∧
      ((∀ listed, ¬ListsState c listed) → status = .ofCode r.status) ∧
      ∀ listed, ListsState c listed → status = listed := by
  obtain ⟨w', hbuffer⟩ := Response.bufferBody_eq content w
  refine ⟨(OperationStatus.named? c).getD (.ofCode r.status), w', ?_, fun hnone => ?_,
    fun listed hlisted => ?_⟩
  · dsimp only [OperationStatus.ofResponse, Act.bind_apply]
    rw [hbuffer]
    rfl
  · have hnamed : OperationStatus.named? c = none :=
      Option.eq_none_iff_forall_ne_some.2 fun listed hlisted =>
        hnone listed ((OperationStatus.named?_eq_some_iff other).1 hlisted)
    rw [hnamed, Option.getD_none]
  · rw [(OperationStatus.named?_eq_some_iff other).2 hlisted, Option.getD_some]

theorem Token.load_shapes (other : ¬Json.IsObjectText c) {path : String} {t : FileTree}
    (content : t.read path = .ok c) :
    ((∀ token, ¬ListsToken c token) →
        ∃ fault, Token.load path t = .error (.undecodable path fault)) ∧
      ∀ token, ListsToken c token → Token.load path t = .ok token := by
  unfold Token.load Token.ofFile
  rw [content]
  dsimp only
  constructor
  · intro hnone
    cases hdecode : Json.decode Token.readJson c with
    | ok token => exact absurd ((Token.decode_readJson_iff other).1 hdecode) (hnone token)
    | error fault => exact ⟨fault, rfl⟩
  · intro token hlisted
    rw [(Token.decode_readJson_iff other).2 hlisted]

/-- What lists anything is an array. -/
theorem isArrayText_of_array {items : List Json}
    (h : Json.decode Json.readAny c = .ok (.array items)) : Json.IsArrayText c :=
  Json.isArrayText_of_decode Json.readAny_sound (Json.decode_array_iff.1 h)

theorem ListsFailure.isArrayText {service : ServiceError} (h : ListsFailure c service) :
    Json.IsArrayText c := by
  obtain ⟨-, only | ⟨items, array, -⟩⟩ := h
  · exact Json.isArrayText_of_decode ServiceError.readJson_sound only
  · exact isArrayText_of_array array

/-- **Shapes that are recognized.** Of the texts that are no object nothing is recognized but arrays
    that list what is looked for. If the content of a response with a status that is not accepted
    lists no failure the step that searches it for one ends without an error; if it lists one, the
    step fails with it. The state of an operation is told by the status code of a response unless
    its content lists a state. Loading a token from a file fails for the form of its content unless
    it lists a token. A response keeps its content for its receiver in any case. -/
theorem shapes_recognized (other : ¬Json.IsObjectText c) :
    (∀ (codes : List Status) (h : Handling) (w : World), h.response.status ∉ codes →
      h.response.content = .ok c → ∃ result w',
        (∀ next, RespondStep.decorate (.serviceErrorUnless codes) next h w =
          ((result, { h with response := h.response.buffered c }), w')) ∧
        ((∀ service, ¬ListsFailure c service) → result = .ok ()) ∧
        ∀ service, ListsFailure c service →
          ∃ e, result = .error (.service e) ∧ e.Tells h.response service) ∧
    (∀ (r : Response) (w : World), r.content = .ok c → ∃ status w',
      OperationStatus.ofResponse r w = ((.ok status, r.buffered c), w') ∧
      ((∀ listed, ¬ListsState c listed) → status = .ofCode r.status) ∧
      ∀ listed, ListsState c listed → status = listed) ∧
    (∀ (path : String) (t : FileTree), t.read path = .ok c →
      ((∀ token, ¬ListsToken c token) →
        ∃ fault, Token.load path t = .error (.undecodable path fault)) ∧
      ∀ token, ListsToken c token → Token.load path t = .ok token) ∧
    (∀ r : Response, r.content = .ok c → (r.buffered c).content = .ok c) ∧
    (¬Json.IsArrayText c → (∀ service, ¬ListsFailure c service) ∧
      (∀ listed, ¬ListsState c listed) ∧ ∀ token, ¬ListsToken c token) := by
  refine ⟨fun codes h w refused content => ?_, fun r w content => ?_, fun path t content => ?_,
    fun r content => Response.content_buffered content, fun hother => ?_⟩
  · have hcontains : ¬codes.contains h.response.status = true := by simpa using refused
    obtain ⟨result, w', hdescribe, hshapes⟩ := describeFailure_shapes other content w
    refine ⟨result, w', fun next => ?_, hshapes⟩
    dsimp only [RespondStep.decorate]
    rw [if_neg hcontains, hdescribe]
  · exact OperationStatus.ofResponse_shapes other content w
  · exact Token.load_shapes other content
  · refine ⟨fun service h => hother h.isArrayText, ?_, ?_⟩
    · rintro listed ⟨name, array, -⟩
      exact hother (isArrayText_of_array array)
    · rintro token ⟨texts, array, -⟩
      exact hother (Json.isArrayText_of_decode Json.readText_sound array)

/-- A response with the status of a bad request, and with some content. -/
def badRequest (content : Bytes) : Response := ⟨⟨400⟩, [], some (.ofBytes content)⟩

/-- Files of which the only one is for a token. -/
def tokenFiles (content : Bytes) : FileTree := ⟨[(["t"], .file content)]⟩

theorem tokenFiles_read (content : Bytes) : (tokenFiles content).read "t" = .ok content := by
  cbv

/-- An array of a code, no message and no details. -/
def busyList : Bytes := Utf8.encode "[\"Busy\",\"\",null]"

/-- That array describes a failure, but it names no state, and it is no token. -/
theorem shapes_recognized_busy :
    ¬Json.IsObjectText busyList ∧
    (∃ e h w, (∀ next, RespondStep.decorate (.serviceErrorUnless [⟨200⟩]) next
        ⟨badRequest busyList, []⟩ World.quiet = ((.error (.service e), h), w)) ∧
      e.report.serviceError.map ServiceError.code = some "Busy") ∧
    (OperationStatus.ofResponse (badRequest busyList) World.quiet).1.1 = .ok .failed ∧
    ∃ fault, Token.load "t" (tokenFiles busyList) = .error (.undecodable "t" fault) := by
  have other : ¬Json.IsObjectText busyList := Json.not_isObjectText (by decide +kernel)
  obtain ⟨failures, states, tokens, -⟩ := shapes_recognized other
  refine ⟨other, ?_, ?_, ?_⟩
  · obtain ⟨service, hservice, hcode⟩ := Option.map_eq_some_iff.1
      (show (ServiceError.ofBody? busyList).map ServiceError.code = some "Busy" by decide +kernel)
    obtain ⟨result, w, hsearch, -, hfails⟩ :=
      failures [⟨200⟩] ⟨badRequest busyList, []⟩ World.quiet (by decide) rfl
    obtain ⟨e, rfl, tells⟩ := hfails service
      ((describes_iff_listsFailure other).1 (ofBody?_eq_some_iff.1 hservice))
    exact ⟨e, _, w, hsearch, by rw [tells.serviceError, Option.map_some, hcode]⟩
  · have hnamed : OperationStatus.named? busyList = none := by decide +kernel
    obtain ⟨status, w, hstatus, hnone, -⟩ := states (badRequest busyList) World.quiet rfl
    have hfailed : status = .failed := hnone fun listed hlisted => by
      rw [(OperationStatus.named?_eq_some_iff other).2 hlisted] at hnamed
      exact absurd hnamed (by simp)
    rw [hstatus, hfailed]
  · have hdecode : (Json.decode Token.readJson busyList).toOption = none := by decide +kernel
    refine (tokens "t" (tokenFiles busyList) (tokenFiles_read _)).1 fun token hlisted => ?_
    rw [(Token.decode_readJson_iff other).2 hlisted] at hdecode
    exact absurd hdecode (by simp [Except.toOption])

/-- An array of one text. -/
def succeededList : Bytes := Utf8.encode "[\"Succeeded\"]"

/-- Not only objects are recognized: that array is taken for the description of a failure, for the
    state of an operation that has failed by its status code, and for a token. -/
theorem not_only_objects_recognized :
    ¬Json.IsObjectText succeededList ∧
    (∃ e h w, (∀ next, RespondStep.decorate (.serviceErrorUnless [⟨200⟩]) next
        ⟨badRequest succeededList, []⟩ World.quiet = ((.error (.service e), h), w)) ∧
      e.report.serviceError.map ServiceError.code = some "Succeeded") ∧
    OperationStatus.ofCode (badRequest succeededList).status = .failed ∧
    (OperationStatus.ofResponse (badRequest succeededList) World.quiet).1.1 = .ok .succeeded ∧
    Token.load "t" (tokenFiles succeededList) =
      .ok { Token.empty with accessToken := "Succeeded" } := by
  have other : ¬Json.IsObjectText succeededList := Json.not_isObjectText (by decide +kernel)
  refine ⟨other, ?_, rfl, eq_ok_of_toOption (by decide +kernel), ?_⟩
  · obtain ⟨service, hservice, hcode⟩ := Option.map_eq_some_iff.1
      (show (ServiceError.ofBody? succeededList).map ServiceError.code = some "Succeeded" by
        decide +kernel)
    obtain ⟨result, w, hdescribe, -, hfails⟩ := describeFailure_shapes other
      (h := ⟨badRequest succeededList, []⟩) rfl World.quiet
    obtain ⟨e, rfl, tells⟩ := hfails service
      ((describes_iff_listsFailure other).1 (ofBody?_eq_some_iff.1 hservice))
    exact ⟨e, _, w, fun next => hdescribe, by rw [tells.serviceError, Option.map_some, hcode]⟩
  · refine (Token.load_shapes other (tokenFiles_read _)).2 _ ?_
    exact (Token.decode_readJson_iff other).1 (eq_ok_of_toOption (by decide +kernel))

end Courier
