import ArcravenUgv.Lib.Utf8
import ArcravenUgv.Subsystems.Bridge

/-!
# The string functions of the Rust client

`str::trim_end`, `str::parse` for unsigned numbers and `BufRead::read_line`, on
the bytes of the strings.
-/

namespace ArcravenUgv.RustText

open ArcravenUgv.Command
open ArcravenUgv.Decimal
open ArcravenUgv.Delimited
open ArcravenUgv.CommandLine

/-- The bytes of one character with the property `White_Space`. -/
def isWhiteSpace : Bytes → Bool
  | [a] => (9 ≤ a && a ≤ 13) || a = 32
  | [a, b] => a = 0xC2 && (b = 0x85 || b = 0xA0)
  | [a, b, c] =>
      (a = 0xE1 && b = 0x9A && c = 0x80) ||
      (a = 0xE2 && b = 0x80 && ((0x80 ≤ c && c ≤ 0x8A) || c = 0xA8 || c = 0xA9 || c = 0xAF)) ||
      (a = 0xE2 && b = 0x81 && c = 0x9F) ||
      (a = 0xE3 && b = 0x80 && c = 0x80)
  | _ => false

/-- `trim_end` on the reversed text; no character of white space has more than
three bytes. -/
def trimReversed : Bytes → Bytes
  | [] => []
  | last :: rest =>
      if isWhiteSpace [last] then trimReversed rest
      else
        match rest with
        | [] => [last]
        | second :: rest =>
            if isWhiteSpace [second, last] then trimReversed rest
            else
              match rest with
              | [] => [last, second]
              | third :: rest =>
                  if isWhiteSpace [third, second, last] then trimReversed rest
                  else last :: second :: third :: rest

/-- `text.trim_end()`. -/
def trimEnd (text : Bytes) : Bytes := (trimReversed text.reverse).reverse

/-- `text.parse()` for an unsigned type of this many bits: digits, with one plus
sign in front at most. -/
def parseUnsigned (bits : ℕ) (text : Bytes) : Option ℕ :=
  let digits :=
    match text with
    | 43 :: rest => rest
    | _ => text
  if digits = [] ∨ digits.all isDigit = false then none
  else if 2 ^ bits ≤ digitsValue digits then none
  else some (digitsValue digits)

/-- `BufRead::read_line` at a stream position: nothing at the end of the file,
else the bytes up to a newline or the end, which have to be UTF-8. -/
inductive ReadLine
  | endOfFile
  | invalid
  | line (text : Bytes)
  deriving DecidableEq, Repr

def readLine (file : Bytes) (position : ℕ) : ReadLine :=
  match records newline (file.drop position) with
  | [] => .endOfFile
  | text :: _ => if Utf8.valid text then .line text else .invalid

/-! ## `trim_end` -/

/-- No character of white space ends the text. -/
def Trimmed (text : Bytes) : Prop :=
  ∀ front char, text = front ++ char → isWhiteSpace char = false

/-- The bytes of a character of several bytes have their eighth bit set. -/
theorem le_of_mem_isWhiteSpace {first second : UInt8} {rest : Bytes}
    (hspace : isWhiteSpace (first :: second :: rest) = true) {byte : UInt8}
    (hmem : byte ∈ first :: second :: rest) : 0x80 ≤ byte := by
  rcases rest with _ | ⟨third, _ | ⟨fourth, more⟩⟩
  · simp only [isWhiteSpace, Bool.and_eq_true, Bool.or_eq_true, decide_eq_true_eq] at hspace
    simp only [List.mem_cons, List.not_mem_nil, or_false] at hmem
    obtain ⟨rfl, hsecond⟩ := hspace
    rcases hmem with rfl | rfl
    · decide
    · rcases hsecond with rfl | rfl <;> decide
  · simp only [isWhiteSpace, Bool.and_eq_true, Bool.or_eq_true, decide_eq_true_eq] at hspace
    simp only [List.mem_cons, List.not_mem_nil, or_false] at hmem
    have hfirst : 0x80 ≤ first := by
      rcases hspace with ((⟨⟨rfl, -⟩, -⟩ | ⟨⟨rfl, -⟩, -⟩) | ⟨⟨rfl, -⟩, -⟩) | ⟨⟨rfl, -⟩, -⟩ <;>
        decide
    have hsecond : 0x80 ≤ second := by
      rcases hspace with ((⟨⟨-, rfl⟩, -⟩ | ⟨⟨-, rfl⟩, -⟩) | ⟨⟨-, rfl⟩, -⟩) | ⟨⟨-, rfl⟩, -⟩ <;>
        decide
    have hthird : 0x80 ≤ third := by
      rcases hspace with ((⟨-, rfl⟩ | ⟨-, hthird⟩) | ⟨-, rfl⟩) | ⟨-, rfl⟩
      · decide
      · rcases hthird with ((⟨hthird, -⟩ | rfl) | rfl) | rfl
        · exact hthird
        · decide
        · decide
        · decide
      · decide
      · decide
    rcases hmem with rfl | rfl | rfl
    · exact hfirst
    · exact hsecond
    · exact hthird
  · cases hspace

private theorem trimReversed_of_trimmed {text : Bytes}
    (htrimmed : ∀ char rest, text = char.reverse ++ rest → isWhiteSpace char = false) :
    trimReversed text = text := by
  unfold trimReversed
  split
  · rfl
  · rename_i last rest
    rw [if_neg (by simp [htrimmed [last] rest rfl])]
    split
    · rfl
    · rename_i second rest
      rw [if_neg (by simp [htrimmed [second, last] rest rfl])]
      split
      · rfl
      · rename_i third rest
        rw [if_neg (by simp [htrimmed [third, second, last] rest rfl])]

theorem trimEnd_of_trimmed {text : Bytes} (htrimmed : Trimmed text) : trimEnd text = text := by
  rw [trimEnd, trimReversed_of_trimmed, List.reverse_reverse]
  intro char rest heq
  refine htrimmed rest.reverse char ?_
  rw [← List.reverse_reverse text, heq, List.reverse_append, List.reverse_reverse]

private theorem trimReversed_suffix (text : Bytes) : trimReversed text <:+ text := by
  fun_induction trimReversed text with
  | case1 => exact List.suffix_rfl
  | case2 last rest _ ih => exact ih.trans (List.suffix_cons _ _)
  | case3 => exact List.suffix_rfl
  | case4 last _ second rest _ ih => exact ih.trans ⟨[last, second], rfl⟩
  | case5 => exact List.suffix_rfl
  | case6 last _ second _ third rest _ ih => exact ih.trans ⟨[last, second, third], rfl⟩
  | case7 => exact List.suffix_rfl

theorem isPrefix_trimEnd (text : Bytes) : trimEnd text <+: text := by
  rw [trimEnd, ← List.reverse_suffix, List.reverse_reverse]
  exact trimReversed_suffix _

/-- White space at the end is taken off. -/
private theorem length_trimReversed_lt {char : Bytes} (hspace : isWhiteSpace char = true)
    (rest : Bytes) : (trimReversed (char.reverse ++ rest)).length < char.length + rest.length := by
  have hle : ∀ text, (trimReversed text).length ≤ text.length :=
    fun text => (trimReversed_suffix text).length_le
  rcases char with _ | ⟨first, _ | ⟨second, _ | ⟨third, _ | ⟨fourth, more⟩⟩⟩⟩
  · cases hspace
  · have hrest := hle rest
    rw [List.reverse_singleton, List.singleton_append, trimReversed.eq_def]
    simp only [hspace, if_true, List.length_singleton]
    omega
  · have hrest := hle rest
    have hmore := hle (first :: rest)
    simp only [List.reverse_cons, List.reverse_nil, List.nil_append, List.cons_append]
    rw [trimReversed.eq_def]
    simp only [hspace, if_true, List.length_cons, List.length_nil] at hmore ⊢
    split <;> omega
  · have hrest := hle rest
    have hmore := hle (second :: first :: rest)
    have hless := hle (first :: rest)
    simp only [List.reverse_cons, List.reverse_nil, List.nil_append, List.cons_append]
    rw [trimReversed.eq_def]
    simp only [hspace, if_true, List.length_cons, List.length_nil] at hmore hless ⊢
    split
    · omega
    · split <;> omega
  · cases hspace

theorem trimmed_iff {text : Bytes} : Trimmed text ↔ trimEnd text = text := by
  constructor
  · exact trimEnd_of_trimmed
  · intro htrim front char heq
    refine Bool.eq_false_iff.2 fun hspace => ?_
    have hlength := length_trimReversed_lt hspace front.reverse
    rw [← List.reverse_append, ← heq] at hlength
    have hsame := congrArg List.length htrim
    rw [trimEnd, List.length_reverse, heq, List.length_append, ← heq] at hsame
    rw [List.length_reverse] at hlength
    omega

instance (text : Bytes) : Decidable (Trimmed text) :=
  decidable_of_iff _ trimmed_iff.symm

theorem trimEnd_append_newline (text : Bytes) :
    trimEnd (text ++ [newline]) = trimEnd text := by
  have hstep : trimReversed (newline :: text.reverse) = trimReversed text.reverse := by
    conv_lhs => unfold trimReversed
    rfl
  rw [trimEnd, List.reverse_append, List.reverse_singleton, List.singleton_append, hstep,
    trimEnd]

/-- A text ends with a byte that no character of white space ends with. -/
theorem trimmed_of_last {text : Bytes} {last : UInt8} (hlast : text.getLast? = some last)
    (hascii : last ≤ 0x7F) (hspace : isWhiteSpace [last] = false) : Trimmed text := by
  rintro front char rfl
  rcases char with _ | ⟨first, _ | ⟨second, rest⟩⟩
  · rfl
  · obtain rfl : first = last := by simpa using hlast
    exact hspace
  · refine Bool.eq_false_iff.2 fun hspace => ?_
    have hmem : last ∈ first :: second :: rest := by
      refine List.mem_of_getLast? ?_
      rwa [List.getLast?_append_of_ne_nil _ (by simp)] at hlast
    have hhigh := le_of_mem_isWhiteSpace hspace hmem
    simp only [UInt8.le_iff_toNat_le, UInt8.reduceToNat] at hascii hhigh
    omega

/-- No white space holds a `'|'`. -/
theorem isWhiteSpace_of_bar_mem {char : Bytes} (hbar : bar ∈ char) :
    isWhiteSpace char = false := by
  apply Bool.eq_false_iff.2
  intro hspace
  rcases char with _ | ⟨first, _ | ⟨second, rest⟩⟩
  · cases hbar
  · rw [← List.mem_singleton.1 hbar] at hspace
    exact absurd hspace (by decide)
  · exact absurd (le_of_mem_isWhiteSpace hspace hbar) (by decide)

/-- Trimming stops at a `'|'`. -/
private theorem trimReversed_append_bar (text rest : Bytes) :
    trimReversed (text ++ bar :: rest) = trimReversed text ++ bar :: rest := by
  fun_induction trimReversed text with
  | case1 =>
      apply trimReversed_of_trimmed
      intro char after heq
      cases hreverse : char.reverse with
      | nil =>
          rw [List.reverse_eq_nil_iff.1 hreverse]
          rfl
      | cons head others =>
          rw [hreverse, List.nil_append, List.cons_append] at heq
          obtain ⟨rfl, -⟩ := List.cons.inj heq
          apply isWhiteSpace_of_bar_mem
          rw [← List.mem_reverse, hreverse]
          exact List.mem_cons_self ..
  | case2 last rest hspace ih =>
      rw [List.cons_append, trimReversed.eq_def]
      simp only [hspace, if_true, ih]
  | case3 last hspace =>
      rw [List.cons_append, trimReversed.eq_def]
      cases rest <;> simp [hspace, isWhiteSpace_of_bar_mem]
  | case4 last hlast second rest hspace ih =>
      rw [List.cons_append, trimReversed.eq_def]
      simp [hlast, hspace, ih]
  | case5 last hlast second hspace =>
      rw [List.cons_append, trimReversed.eq_def]
      simp [hlast, hspace, isWhiteSpace_of_bar_mem]
  | case6 last hlast second hsecond third rest hspace ih =>
      rw [List.cons_append, trimReversed.eq_def]
      simp [hlast, hsecond, hspace, ih]
  | case7 last hlast second hsecond third rest hspace =>
      rw [List.cons_append, trimReversed.eq_def]
      simp [hlast, hsecond, hspace]

theorem trimEnd_append_bar (before text : Bytes) :
    trimEnd (before ++ bar :: text) = before ++ bar :: trimEnd text := by
  have hreverse : (before ++ bar :: text).reverse = text.reverse ++ bar :: before.reverse := by
    simp
  rw [trimEnd, hreverse, trimReversed_append_bar]
  simp [trimEnd]

/-- A text that is trimmed stays so behind a `'|'`. -/
theorem Trimmed.append {text : Bytes} (htrimmed : Trimmed text) (before : Bytes) :
    Trimmed (before ++ bar :: text) := by
  rw [trimmed_iff, trimEnd_append_bar, trimmed_iff.1 htrimmed]

/-! ## Numbers and lines -/

/-- A printed number comes back if it fits. -/
theorem parseUnsigned_decimal (bits number : ℕ) :
    parseUnsigned bits (decimal number) = if number < 2 ^ bits then some number else none := by
  have hplus : ∀ rest, decimal number ≠ 43 :: rest := by
    intro rest heq
    have hmem : (43 : UInt8) ∈ decimal number := by simp [heq]
    exact absurd (isDigit_of_mem_decimal hmem) (by decide)
  have hdigits : (decimal number).all isDigit = true :=
    List.all_eq_true.2 fun _ => isDigit_of_mem_decimal
  unfold parseUnsigned
  split
  · rename_i rest heq
    exact absurd heq (hplus rest)
  · by_cases hfits : number < 2 ^ bits
    · simp [decimal_ne_nil, hdigits, hfits, not_le.2 hfits]
    · simp [decimal_ne_nil, hdigits, hfits, not_lt.1 hfits]

/-- The next line is there with its newline. -/
theorem readLine_of_newline {file line rest : Bytes} {position : ℕ}
    (hfile : file.drop position = line ++ newline :: rest) (hfree : newline ∉ line)
    (hvalid : Utf8.valid line = true) :
    readLine file position = .line (line ++ [newline]) := by
  have hutf8 : Utf8.valid (line ++ [newline]) = true := by
    rw [Utf8.valid_append hvalid]
    rfl
  simp [readLine, hfile, records_append_delim hfree, hutf8]

theorem prefix_of_readLine {file line : Bytes} {position : ℕ}
    (hline : readLine file position = .line line) : line <+: file.drop position := by
  unfold readLine at hline
  split at hline
  · cases hline
  · rename_i text lines hrecords
    split_ifs at hline
    rw [← ReadLine.line.inj hline, ← flatten_records newline (file.drop position), hrecords]
    exact ⟨lines.flatten, rfl⟩

/-- The rest of the file has no newline. -/
theorem readLine_of_last {file line : Bytes} {position : ℕ}
    (hfile : file.drop position = line) (hfree : newline ∉ line) (hnonempty : line ≠ []) :
    readLine file position = if Utf8.valid line then .line line else .invalid := by
  rw [readLine, hfile, records_last hfree hnonempty]

theorem readLine_of_end {file : Bytes} {position : ℕ} (hend : file.drop position = []) :
    readLine file position = .endOfFile := by
  simp [readLine, hend]

end ArcravenUgv.RustText
