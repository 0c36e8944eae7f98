import Mathlib.Tactic

/-!
# UTF-8

Which byte strings are UTF-8.  The first byte of a character says in which
ranges the bytes that have to follow it lie; surrogates and overlong forms are
excluded by the range of the second byte.
-/

namespace ArcravenUgv.Utf8

/-- The least and the greatest value of each byte that has to follow. -/
abbrev Owed := List (UInt8 × UInt8)

/-- A continuation byte. -/
def tail : UInt8 × UInt8 := (0x80, 0xBF)

/-- What a byte at the start of a character owes. -/
def follow (byte : UInt8) : Option Owed :=
  if byte ≤ 0x7F then some []
  else if byte < 0xC2 then none
  else if byte ≤ 0xDF then some [tail]
  else if byte = 0xE0 then some [(0xA0, 0xBF), tail]
  else if byte = 0xED then some [(0x80, 0x9F), tail]
  else if byte ≤ 0xEF then some [tail, tail]
  else if byte = 0xF0 then some [(0x90, 0xBF), tail, tail]
  else if byte ≤ 0xF3 then some [tail, tail, tail]
  else if byte = 0xF4 then some [(0x80, 0x8F), tail, tail]
  else none

/-- The rest of a text, inside a character that owes these bytes. -/
def validFrom : Owed → List UInt8 → Bool
  | [], [] => true
  | _ :: _, [] => false
  | [], byte :: rest =>
      match follow byte with
      | none => false
      | some owed => validFrom owed rest
  | (low, high) :: owed, byte :: rest => (low ≤ byte && byte ≤ high) && validFrom owed rest

def valid (text : List UInt8) : Bool := validFrom [] text

@[simp]
theorem valid_nil : valid [] = true := rfl

/-- A byte of seven bits is a character. -/
theorem valid_cons_ascii {byte : UInt8} (hascii : byte ≤ 0x7F) (rest : List UInt8) :
    valid (byte :: rest) = valid rest := by
  simp [valid, validFrom, follow, hascii]

private theorem validFrom_append {owed : Owed} {left : List UInt8}
    (hleft : validFrom owed left = true) (right : List UInt8) :
    validFrom owed (left ++ right) = valid right := by
  induction left generalizing owed with
  | nil =>
      cases owed with
      | nil => rfl
      | cons range owed => cases hleft
  | cons byte left ih =>
      cases owed with
      | nil =>
          rw [List.cons_append, validFrom]
          rw [validFrom] at hleft
          cases hfollow : follow byte with
          | none => simp [hfollow] at hleft
          | some owed =>
              simp only [hfollow] at hleft
              exact ih hleft
      | cons range owed =>
          obtain ⟨hrange, hrest⟩ := (Bool.and_eq_true _ _).mp hleft
          rw [List.cons_append, validFrom, hrange, Bool.true_and]
          exact ih hrest

/-- Texts one after the other. -/
theorem valid_append {left : List UInt8} (hleft : valid left = true) (right : List UInt8) :
    valid (left ++ right) = valid right :=
  validFrom_append hleft right

/-- Every byte that has to follow has its eighth bit set. -/
def Continues (owed : Owed) : Prop := ∀ range ∈ owed, 0x80 ≤ range.1

instance (owed : Owed) : Decidable (Continues owed) :=
  List.decidableBAll (fun range : UInt8 × UInt8 => 0x80 ≤ range.1) owed

private theorem continues_follow {byte : UInt8} {owed : Owed}
    (hfollow : follow byte = some owed) : Continues owed := by
  unfold follow at hfollow
  split_ifs at hfollow
  all_goals
    obtain rfl := Option.some.inj hfollow
    decide

private theorem validFrom_cut {owed : Owed} (howed : Continues owed) {byte : UInt8}
    (hascii : byte ≤ 0x7F) (left right : List UInt8) :
    validFrom owed (left ++ byte :: right) = (validFrom owed left && valid right) := by
  induction left generalizing owed with
  | nil =>
      cases owed with
      | nil => exact valid_cons_ascii hascii right
      | cons range owed =>
          have hlow : ¬ range.1 ≤ byte := by
            have hrange := howed range (by simp)
            simp only [UInt8.le_iff_toNat_le, UInt8.reduceToNat] at hrange hascii ⊢
            omega
          simp [validFrom, hlow]
  | cons head left ih =>
      cases owed with
      | nil =>
          rw [List.cons_append, validFrom, validFrom]
          cases hfollow : follow head with
          | none => rfl
          | some owed => exact ih (continues_follow hfollow)
      | cons range owed =>
          rw [List.cons_append, validFrom, validFrom,
            ih fun other hother => howed other (List.mem_cons_of_mem _ hother)]
          simp only [Bool.and_assoc]

/-- A byte of seven bits stands between two texts. -/
theorem valid_cut {byte : UInt8} (hascii : byte ≤ 0x7F) (left right : List UInt8) :
    valid (left ++ byte :: right) = (valid left && valid right) :=
  validFrom_cut (by simp [Continues]) hascii left right

/-- A text of bytes of seven bits. -/
theorem valid_of_ascii {text : List UInt8} (hascii : ∀ byte ∈ text, byte ≤ 0x7F) :
    valid text = true := by
  induction text with
  | nil => rfl
  | cons byte text ih =>
      rw [valid_cons_ascii (hascii byte (by simp)),
        ih fun other hother => hascii other (List.mem_cons_of_mem _ hother)]

end ArcravenUgv.Utf8
