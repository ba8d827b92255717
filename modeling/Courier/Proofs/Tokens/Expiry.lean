import Courier.Proofs.Time.Rereading
import Courier.Service.Token

set_option autoImplicit false

/-! # When tokens expire

A token expires within a span if its expiry does not lie after the end of the span. The end is an
instant of a bounded calendar, so it need not exist; then the question has no answer, unless the
expiry of the token cannot be read, when nothing depends on the end. The spans that end within the
calendar are those between two bounds, and a longer span ends later, also from within a leap second.

The main statement is `expiry_checks`. -/

namespace Courier

/-! ## The order of instants -/

theorem Instant.le_iff {a b : Instant} :
    a.le b = true ↔ a.seconds < b.seconds ∨ a.seconds = b.seconds ∧ a.nanos ≤ b.nanos := by
  simp [Instant.le]

theorem Instant.le_trans {a b c : Instant} (h : a.le b = true) (h' : b.le c = true) :
    a.le c = true := by
  rw [Instant.le_iff] at h h' ⊢
  omega

/-! ## Spans -/

/-- The nanoseconds from the beginning of 1970 to an instant. Those of a leap second are counted
    again in the second after it. -/
def Instant.point (t : Instant) : Int := t.seconds * 1000000000 + t.nanos

/-- Whether a span from an instant ends within the calendar. From within a leap second the way to
    its end is a second longer. -/
def Instant.Reaches (t : Instant) (span : Int) : Prop :=
  Instant.first * 1000000000 ≤ t.point + span ∧
    t.point + span < (Instant.last + 1) * 1000000000 + if t.isLeap then 1000000000 else 0

theorem Instant.of?_isSome_iff {seconds : Int} {nanos : Nat} :
    (Instant.of? seconds nanos).isSome = true ↔
      nanos < 2000000000 ∧ Instant.first ≤ seconds ∧ seconds ≤ Instant.last := by
  unfold Instant.of?
  split <;> simp_all

/-- Whether a span leads from a leap second to an instant of the same second. -/
def Instant.Stays (t : Instant) (span : Int) : Prop :=
  t.isLeap = true ∧ -1000000000 < span ∧ span < 1000000000 ∧ t.nanos + span < 2000000000

/-- The end of a span that stays in a leap second. -/
theorem Instant.addNanos?_of_stays {t : Instant} {span : Int} (h : t.Stays span) :
    t.addNanos? span = Instant.of? t.seconds (t.nanos + span).toNat :=
  if_pos h

/-- The end of a span that does not stay in a leap second. -/
theorem Instant.addNanos?_of_not_stays {t : Instant} {span : Int} (h : ¬t.Stays span) :
    t.addNanos? span =
      let total := t.point + span - if t.isLeap = true ∧ 0 < span then 1000000000 else 0
      Instant.of? (total / 1000000000) (total % 1000000000).toNat := by
  refine (if_neg h).trans ?_
  have hbillion : (0 : Int) ≤ 1000000000 := by decide
  simp only [Int.fdiv_eq_ediv_of_nonneg _ hbillion, Int.fmod_eq_emod_of_nonneg _ hbillion,
    Instant.point, Int.add_assoc]

theorem Instant.isLeap_iff {t : Instant} : t.isLeap = true ↔ 1000000000 ≤ t.nanos := by
  simp [Instant.isLeap]

/-- A span leads to an instant exactly if it ends within the calendar. -/
theorem Instant.addNanos?_isSome_iff {t : Instant} {span : Int} :
    (t.addNanos? span).isSome = true ↔ t.Reaches span := by
  have hrange := t.in_range
  have hlt := t.nanos_lt
  unfold Instant.Reaches
  by_cases h : t.Stays span
  · rw [Instant.addNanos?_of_stays h, Instant.of?_isSome_iff]
    unfold Instant.Stays at h
    simp only [Instant.isLeap_iff, Instant.point, Instant.first, Instant.last] at *
    rw [if_pos (by omega)]
    omega
  · rw [Instant.addNanos?_of_not_stays h]
    dsimp only
    rw [Instant.of?_isSome_iff]
    unfold Instant.Stays at h
    simp only [Instant.isLeap_iff, Instant.point, Instant.first, Instant.last] at *
    split <;> split <;> omega

/-- Where a span ends: in the leap second that it begins in, or at a whole second and less than a
    second more, so many nanoseconds further on. -/
theorem Instant.addNanos?_cases {t a : Instant} {span : Int} (h : t.addNanos? span = some a) :
    (t.Stays span ∧ a.seconds = t.seconds ∧ (a.nanos : Int) = t.nanos + span) ∨
      (¬t.Stays span ∧ a.nanos < 1000000000 ∧
        a.point = t.point + span - if t.isLeap = true ∧ 0 < span then 1000000000 else 0) := by
  by_cases hstays : t.Stays span
  · rw [Instant.addNanos?_of_stays hstays] at h
    obtain ⟨hseconds, hnanos⟩ := Instant.eq_of_of? h
    have hleap := Instant.isLeap_iff.1 hstays.1
    have hlower := hstays.2.1
    exact .inl ⟨hstays, hseconds, by omega⟩
  · rw [Instant.addNanos?_of_not_stays hstays] at h
    obtain ⟨hseconds, hnanos⟩ := Instant.eq_of_of? h
    refine .inr ⟨hstays, by omega, ?_⟩
    rw [Instant.point]
    omega

/-- A longer span does not end earlier. -/
theorem Instant.addNanos?_mono {t a b : Instant} {span longer : Int} (hle : span ≤ longer)
    (ha : t.addNanos? span = some a) (hb : t.addNanos? longer = some b) : a.le b = true := by
  have hlt := t.nanos_lt
  rw [Instant.le_iff]
  rcases Instant.addNanos?_cases ha with ⟨hstays, ha⟩ | ⟨hstays, ha⟩ <;>
    rcases Instant.addNanos?_cases hb with ⟨hstays', hb⟩ | ⟨hstays', hb⟩ <;>
    simp only [Instant.Stays, Instant.isLeap_iff, Instant.point] at * <;> omega

/-- The calendar reaches from every instant to itself. -/
theorem Instant.reaches_zero (t : Instant) : t.Reaches 0 := by
  have hrange := t.in_range
  have hlt := t.nanos_lt
  simp only [Instant.Reaches, Instant.isLeap_iff, Instant.point, Instant.first, Instant.last] at *
  split <;> omega

/-- No span at all ends where it begins. -/
theorem Instant.addNanos?_zero (t : Instant) : t.addNanos? 0 = some t := by
  obtain ⟨a, ha⟩ := Option.isSome_iff_exists.1 (Instant.addNanos?_isSome_iff.2 t.reaches_zero)
  rw [ha, Option.some.injEq, Instant.mk.injEq]
  have hlt := t.nanos_lt
  rcases Instant.addNanos?_cases ha with ⟨hstays, ha⟩ | ⟨hstays, ha⟩ <;>
    simp only [Instant.Stays, Instant.isLeap_iff, Instant.point] at * <;> omega

/-! ## Tokens -/

section Tokens

variable {t : Token} {now : Instant} {window : Int}

/-- What asking whether a token expires within a span comes to: such a token as cannot tell its
    expiry does, the expiry of another one is compared with the end of the span, and without an end
    there is no answer. -/
theorem Token.willExpireIn_cases (t : Token) (now : Instant) (window : Int) :
    (t.expires? = none ∧ t.willExpireIn now window = .ok true) ∨
    (∃ expires limit, t.expires? = some expires ∧ now.addNanos? window = some limit ∧
      t.willExpireIn now window = .ok (expires.le limit)) ∨
    (t.expires? ≠ none ∧ now.addNanos? window = none ∧
      t.willExpireIn now window = .error .instantOutOfRange) := by
  unfold Token.willExpireIn
  cases t.expires? with
  | none => exact .inl ⟨rfl, rfl⟩
  | some expires =>
    cases now.addNanos? window with
    | some limit => exact .inr (.inl ⟨expires, limit, rfl, rfl, rfl⟩)
    | none => exact .inr (.inr ⟨by simp, rfl, rfl⟩)

/-- There is an answer unless the expiry can be read and the span does not end within the
    calendar. -/
theorem Token.willExpireIn_eq_ok_iff :
    (∃ expired, t.willExpireIn now window = .ok expired) ↔
      t.expires? = none ∨ now.Reaches window := by
  rw [← Instant.addNanos?_isSome_iff]
  rcases t.willExpireIn_cases now window with ⟨hnone, heq⟩ | ⟨expires, limit, hsome, hend, heq⟩ |
    ⟨hsome, hend, heq⟩
  · simp [heq, hnone]
  · simp [heq, hend]
  · simp [heq, hend, hsome]

/-- What expires within a span expires within a longer one, if there is an answer for that. -/
theorem Token.willExpireIn_mono {longer : Int} {expired : Bool} (hle : window ≤ longer)
    (h : t.willExpireIn now window = .ok true) (h' : t.willExpireIn now longer = .ok expired) :
    expired = true := by
  rcases t.willExpireIn_cases now longer with ⟨hnone, heq'⟩ | ⟨expires, limit', hsome, hend', heq'⟩ |
    ⟨-, -, heq'⟩
  · exact (Except.ok.inj (heq'.symm.trans h')).symm
  · rcases t.willExpireIn_cases now window with ⟨hnone, -⟩ | ⟨expires', limit, hsome', hend, heq⟩ |
      ⟨-, -, heq⟩
    · exact absurd (hsome.symm.trans hnone) (by simp)
    · obtain rfl := Option.some.inj (hsome.symm.trans hsome')
      have hbefore : expires.le limit = true := Except.ok.inj (heq.symm.trans h)
      have hafter : expires.le limit' = true :=
        Instant.le_trans hbefore (Instant.addNanos?_mono hle hend hend')
      exact (Except.ok.inj (heq'.symm.trans h')).symm.trans hafter
    · exact absurd (heq.symm.trans h) (by simp)
  · exact absurd (heq'.symm.trans h') (by simp)

/-- Whether a token has expired is told by two instants alone. -/
theorem Token.isExpired_eq (t : Token) (now : Instant) :
    t.isExpired now = .ok (t.expires?.all fun expires => expires.le now) := by
  rcases t.willExpireIn_cases now 0 with ⟨hnone, heq⟩ | ⟨expires, limit, hsome, hend, heq⟩ |
    ⟨-, hend, -⟩
  · rw [Token.isExpired, heq, hnone]
    rfl
  · rw [now.addNanos?_zero] at hend
    obtain rfl := Option.some.inj hend
    rw [Token.isExpired, heq, hsome]
    rfl
  · exact absurd (now.addNanos?_zero.symm.trans hend) (by simp)

end Tokens

/-- **Checks of expiry.** Whether a token expires within a span has an answer exactly if its expiry
    cannot be read or the span ends within the calendar. If it expires within a span, it does so
    within every longer one that has an answer. Whether it has expired always has an answer, and if
    it has expired at an instant it has so at every later one. -/
theorem expiry_checks (t : Token) :
    (∀ now window, (∃ expired, t.willExpireIn now window = .ok expired) ↔
      t.expires? = none ∨ now.Reaches window) ∧
    (∀ now window longer, window ≤ longer → t.willExpireIn now window = .ok true →
      t.expires? = none ∨ now.Reaches longer → t.willExpireIn now longer = .ok true) ∧
    (∀ now, ∃ expired, t.isExpired now = .ok expired) ∧
    ∀ now later, now.le later = true → t.isExpired now = .ok true →
      t.isExpired later = .ok true := by
  refine ⟨fun _ _ => Token.willExpireIn_eq_ok_iff, ?_, fun now => ⟨_, t.isExpired_eq now⟩, ?_⟩
  · intro now window longer hle h hanswer
    obtain ⟨expired, h'⟩ := Token.willExpireIn_eq_ok_iff.2 hanswer
    rw [h', Token.willExpireIn_mono hle h h']
  · intro now later hle h
    rw [Token.isExpired_eq] at h ⊢
    replace h := Except.ok.inj h
    cases ht : t.expires? with
    | none => rfl
    | some expires =>
      rw [ht] at h
      exact congrArg Except.ok (Instant.le_trans h hle)

/-- A token that expires in the last second of the calendar. -/
def lastingToken : Token := { Token.empty with expiresOn := "8210266876799" }

/-- The last second of the calendar. -/
def lastSecond : Instant := ⟨Instant.last, 0, Instant.zero_lt_nanos, by decide⟩

theorem lastingToken_expires : lastingToken.expires? = some lastSecond := by
  decide +kernel

/-- A minute before the calendar ends that token expires within a minute, and within half a second
    more. -/
theorem expiry_checks_lasting :
    ∃ now : Instant, now.seconds + 60 = Instant.last ∧
      lastingToken.willExpireIn now 60000000000 = .ok true ∧ now.Reaches 60500000000 ∧
      lastingToken.willExpireIn now 60500000000 = .ok true := by
  let now : Instant := ⟨Instant.last - 60, 0, by decide, by decide⟩
  have hend : now.addNanos? 60000000000 = some lastSecond := by decide
  have hexpires : lastingToken.willExpireIn now 60000000000 = .ok true := by
    rw [Token.willExpireIn, lastingToken_expires]
    dsimp only
    rw [hend]
    rfl
  have hreaches : now.Reaches 60500000000 := ⟨by decide, by decide⟩
  exact ⟨now, rfl, hexpires, hreaches,
    (expiry_checks lastingToken).2.1 now 60000000000 60500000000 (by decide) hexpires
      (.inr hreaches)⟩

/-- It is not so that there is always an answer: a second after the last second of the calendar is
    no instant. -/
theorem not_expiry_checks_answer : ¬∀ (t : Token) (now : Instant) (window : Int),
    ∃ expired, t.willExpireIn now window = .ok expired := by
  intro h
  rcases Token.willExpireIn_eq_ok_iff.1 (h lastingToken lastSecond 1000000000) with hnone | hreaches
  · rw [lastingToken_expires] at hnone
    exact absurd hnone (by simp)
  · exact absurd hreaches.2 (by decide)

end Courier
