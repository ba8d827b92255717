set_option autoImplicit false

/-! # Blanks

The characters with the Unicode property White_Space, and the removal of blanks at the ends of a
text. -/

namespace Courier

/-- Whether a character has the Unicode property White_Space. -/
def isBlank (c : Char) : Bool :=
  let n := c.toNat
  (9 ≤ n && n ≤ 13) || n == 32 || n == 0x85 || n == 0xA0 || n == 0x1680 ||
    (0x2000 ≤ n && n ≤ 0x200A) || n == 0x2028 || n == 0x2029 || n == 0x202F || n == 0x205F ||
    n == 0x3000

/-- The characters from the first one that is not blank. -/
def Blank.trimStart (chars : List Char) : List Char := chars.dropWhile isBlank

/-- The characters up to the last one that is not blank. -/
def Blank.trimEnd (chars : List Char) : List Char :=
  (chars.reverse.dropWhile isBlank).reverse

/-- A text without the blanks at its two ends. -/
def Blank.trim (text : String) : String :=
  String.ofList (Blank.trimEnd (Blank.trimStart text.toList))

/-- A text without blanks has none at its ends. -/
theorem Blank.trim_of_forall {chars : List Char} (h : ∀ c ∈ chars, isBlank c = false) :
    Blank.trim (String.ofList chars) = String.ofList chars := by
  have hdrop : ∀ chars : List Char, (∀ c ∈ chars, isBlank c = false) →
      chars.dropWhile isBlank = chars := by
    intro chars hnone
    cases chars with
    | nil => rfl
    | cons c rest => exact List.dropWhile_cons_of_neg (by simp [hnone c List.mem_cons_self])
  have hreverse : ∀ c ∈ chars.reverse, isBlank c = false := fun c hc => h c (List.mem_reverse.1 hc)
  rw [Blank.trim, String.toList_ofList, Blank.trimStart, hdrop chars h, Blank.trimEnd,
    hdrop chars.reverse hreverse, List.reverse_reverse]

end Courier
