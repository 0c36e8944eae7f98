import ArcravenUgv.Subsystems.Bridge

/-!
# The lines that `pump_rx` takes

The README documents a command line of nine fields whose numbers are plain
decimals.  What the loop takes is decided by `std::stoul`, which skips white
space, takes a sign and stops at the first byte that is no digit, by casts to
narrower types, and by a lower bound on the number of parts.
-/

namespace ArcravenUgv.Grammar

open ArcravenUgv.Enums
open ArcravenUgv.Command
open ArcravenUgv.Decimal
open ArcravenUgv.Delimited
open ArcravenUgv.CommandLine

/-! ## What `std::stoull` reads -/

/-- A text cut the way `std::stoull` reads it: white space, a sign, digits, and
what it does not look at. -/
structure Scan (text spaces sign digits rest : Bytes) : Prop where
  text_eq : text = spaces ++ (sign ++ (digits ++ rest))
  of_mem_spaces : ∀ byte ∈ spaces, isSpace byte = true
  sign_eq : sign = [] ∨ sign = [43] ∨ sign = [45]
  nonempty : digits ≠ []
  of_mem_digits : ∀ byte ∈ digits, isDigit byte = true
  of_head_rest : ∀ byte ∈ rest.head?, isDigit byte = false
  fits : digitsValue digits < 2 ^ 64

/-- `std::stoull` takes the text, and it is no plain number below `2 ^ bits`. -/
def Lenient (bits : ℕ) (text : Bytes) : Prop :=
  ∃ spaces sign digits rest, Scan text spaces sign digits rest ∧
    (spaces ≠ [] ∨ sign ≠ [] ∨ rest ≠ [] ∨ 2 ^ bits ≤ digitsValue digits)

private theorem head_dropWhile {test : UInt8 → Bool} {text : Bytes} {byte : UInt8}
    (hhead : byte ∈ (text.dropWhile test).head?) : test byte = false := by
  have hhead' : (text.dropWhile test).head? = some byte := hhead
  have htest := List.head?_dropWhile_not test text
  rw [hhead'] at htest
  simpa using htest

/-- The digits behind an optional sign. -/
private theorem scan_of_unsigned {text spaces sign unsigned : Bytes}
    (htext : text = spaces ++ (sign ++ unsigned))
    (hspaces : ∀ byte ∈ spaces, isSpace byte = true)
    (hsign : sign = [] ∨ sign = [43] ∨ sign = [45])
    (hnonempty : unsigned.takeWhile isDigit ≠ [])
    (hfits : digitsValue (unsigned.takeWhile isDigit) < 2 ^ 64) :
    Scan text spaces sign (unsigned.takeWhile isDigit) (unsigned.dropWhile isDigit) where
  text_eq := by rw [List.takeWhile_append_dropWhile, htext]
  of_mem_spaces := hspaces
  sign_eq := hsign
  nonempty := hnonempty
  of_mem_digits := fun _ => List.mem_takeWhile_imp
  of_head_rest := fun _ => head_dropWhile
  fits := hfits

/-- Whatever `std::stoull` takes can be cut so, and without a minus sign the
word is the value of the digits. -/
theorem scan_of_stoull {text : Bytes} {word : UInt64} (hword : stoull text = some word) :
    ∃ spaces sign digits rest, Scan text spaces sign digits rest ∧
      (sign ≠ [45] → word.toNat = digitsValue digits) := by
  have hspaces : ∀ byte ∈ text.takeWhile isSpace, isSpace byte = true :=
    fun _ => List.mem_takeWhile_imp
  have hcut : text = text.takeWhile isSpace ++ text.dropWhile isSpace :=
    List.takeWhile_append_dropWhile.symm
  generalize text.takeWhile isSpace = spaces at hspaces hcut
  have hvalue : ∀ digits : Bytes, digitsValue digits < 2 ^ 64 →
      (UInt64.ofNat (digitsValue digits)).toNat = digitsValue digits := by
    intro digits hfits
    rw [UInt64.toNat_ofNat', Nat.mod_eq_of_lt hfits]
  simp only [stoull] at hword
  split at hword
  · rename_i rest hunspaced
    simp only [Bool.false_eq_true, if_false] at hword
    split_ifs at hword with hempty hbig
    rw [hunspaced] at hcut
    refine ⟨_, [43], _, _, scan_of_unsigned hcut hspaces (Or.inr (Or.inl rfl)) hempty
      (not_le.1 hbig), fun _ => ?_⟩
    rw [← Option.some.inj hword]
    exact hvalue _ (not_le.1 hbig)
  · rename_i rest hunspaced
    simp only [if_true] at hword
    split_ifs at hword with hempty hbig
    rw [hunspaced] at hcut
    exact ⟨_, [45], _, _, scan_of_unsigned hcut hspaces (Or.inr (Or.inr rfl)) hempty
      (not_le.1 hbig), fun hminus => absurd rfl hminus⟩
  · simp only [Bool.false_eq_true, if_false] at hword
    split_ifs at hword with hempty hbig
    refine ⟨_, [], _, _, scan_of_unsigned hcut hspaces (Or.inl rfl) hempty
      (not_le.1 hbig), fun _ => ?_⟩
    rw [← Option.some.inj hword]
    exact hvalue _ (not_le.1 hbig)

/-- A text that is taken and not lenient is a plain number in range, and its
value is the word. -/
theorem numeral_of_stoull {bits : ℕ} {text : Bytes} {word : UInt64}
    (hword : stoull text = some word) (hplain : ¬ Lenient bits text) :
    Numeral text word.toNat ∧ word.toNat < 2 ^ bits := by
  obtain ⟨spaces, sign, digits, rest, hscan, hvalue⟩ := scan_of_stoull hword
  have hnot : ¬ (spaces ≠ [] ∨ sign ≠ [] ∨ rest ≠ [] ∨ 2 ^ bits ≤ digitsValue digits) :=
    fun hkind => hplain ⟨spaces, sign, digits, rest, hscan, hkind⟩
  simp only [not_or, not_not, not_le] at hnot
  obtain ⟨rfl, rfl, rfl, hsmall⟩ := hnot
  have htext : text = digits := by simpa using hscan.text_eq
  have hword' : word.toNat = digitsValue digits := hvalue (by simp)
  subst htext
  exact ⟨⟨hscan.nonempty, hscan.of_mem_digits, hword'.symm⟩, by rwa [hword']⟩

private theorem not_isDigit_of_isSpace {byte : UInt8} (hspace : isSpace byte = true) :
    isDigit byte = false := by
  have hall : ∀ value : Fin 256, isSpace (UInt8.ofNat value) = true →
      isDigit (UInt8.ofNat value) = false := by
    decide +kernel
  simpa using hall ⟨byte.toNat, byte.toNat_lt⟩ (by simpa using hspace)

/-- A plain number in range is not lenient. -/
theorem Numeral.not_lenient {bits value : ℕ} {text : Bytes} (hnumeral : Numeral text value)
    (hsmall : value < 2 ^ bits) : ¬ Lenient bits text := by
  rintro ⟨spaces, sign, digits, rest, hscan, hkind⟩
  obtain ⟨-, hdigits, hvalue⟩ := hnumeral
  rw [hscan.text_eq] at hdigits hvalue
  have hspaces : spaces = [] := by
    refine List.eq_nil_iff_forall_not_mem.2 fun byte hbyte => ?_
    have hdigit := hdigits byte (by simp [hbyte])
    simp [not_isDigit_of_isSpace (hscan.of_mem_spaces byte hbyte)] at hdigit
  have hsign : sign = [] := by
    rcases hscan.sign_eq with hsign | rfl | rfl
    · exact hsign
    · exact absurd (hdigits 43 (by simp)) (by decide)
    · exact absurd (hdigits 45 (by simp)) (by decide)
  have hrest : rest = [] := by
    cases rest with
    | nil => rfl
    | cons head tail =>
        have hdigit := hdigits head (by simp)
        simp [hscan.of_head_rest head rfl] at hdigit
  subst hspaces hsign hrest
  rw [List.nil_append, List.nil_append, List.append_nil] at hvalue
  rcases hkind with hkind | hkind | hkind | hkind
  · exact hkind rfl
  · exact hkind rfl
  · exact hkind rfl
  · omega

/-! ## The documented lines -/

/-- The numbers of an envelope in the order of the line. -/
def envNumbers (env : CommandEnvelope) : List ℕ :=
  [env.commandId.toNat, env.command.toNat, env.domain.toNat, env.priority.toNat,
    env.authority.toNat, env.issuedNs.toNat, env.ttlNs.toNat]

/-- Exactly nine fields, a `C`, the numbers of the envelope as plain decimals and
a payload. -/
def Documented (line : Bytes) (env : CommandEnvelope) : Prop :=
  ∃ numbers payload, line = joined bar (ascii "C" :: (numbers ++ [payload])) ∧
    bar ∉ payload ∧ List.Forall₂ Numeral numbers (envNumbers env)

/-- A line that makes `pump_rx` submit is documented, and the envelope has the
numbers written on it. -/
def TakenAsDocumented (line : Bytes) : Prop :=
  ∀ env, lineEnvelope line = some env → Documented line env

/-- The parts that are converted, each with the width of the type it is cast
to. -/
def numberParts (parts : List Bytes) : List (ℕ × Bytes) :=
  [(64, parts.getD 1 []), (16, parts.getD 2 []), (8, parts.getD 3 []),
    (8, parts.getD 4 []), (8, parts.getD 5 []), (64, parts.getD 6 []),
    (64, parts.getD 7 [])]

/-- The parts `pump_rx` cuts a line into. -/
def lineParts (line : Bytes) : List Bytes := segments bar (dropCarriageReturn line)

/-- The prefix, the number of parts and every conversion pass. -/
structure Converts (line : Bytes) : Prop where
  tagged : (ascii "C|").isPrefixOf (dropCarriageReturn line) = true
  enough : 9 ≤ (lineParts line).length
  numbers : ∀ part ∈ numberParts (lineParts line), (stoull part.2).isSome = true

/-- A ninth `'|'`, or a number with white space or a sign before its digits,
something behind them, or a value too large for its type. -/
def Aliased (line : Bytes) : Prop :=
  8 < line.count bar ∨ ∃ part ∈ numberParts (lineParts line), Lenient part.1 part.2

/-! ## What is submitted -/

/-- Each number of the envelope is what `std::stoull` made of its part, modulo
the width of its type. -/
theorem parseNumbers_cases {parts : List Bytes} {env : CommandEnvelope}
    (hnumbers : parseNumbers parts = some env) :
    List.Forall₂ (fun part number =>
      ∃ word, stoull part.2 = some word ∧ number = word.toNat % 2 ^ part.1)
      (numberParts parts) (envNumbers env) := by
  simp only [parseNumbers, stoul, Option.bind_eq_bind, Option.bind_eq_some_iff,
    Option.some.injEq] at hnumbers
  obtain ⟨w1, h1, w2, h2, w3, h3, w4, h4, w5, h5, w6, h6, w7, h7, rfl⟩ := hnumbers
  refine .cons ⟨w1, h1, ?_⟩ (.cons ⟨w2, h2, ?_⟩ (.cons ⟨w3, h3, ?_⟩ (.cons ⟨w4, h4, ?_⟩
    (.cons ⟨w5, h5, ?_⟩ (.cons ⟨w6, h6, ?_⟩ (.cons ⟨w7, h7, ?_⟩ .nil))))))
  · exact (Nat.mod_eq_of_lt w1.toNat_lt).symm
  · exact w2.toNat_toUInt16
  · exact w3.toNat_toUInt8
  · exact w4.toNat_toUInt8
  · exact w5.toNat_toUInt8
  · exact (Nat.mod_eq_of_lt w6.toNat_lt).symm
  · exact (Nat.mod_eq_of_lt w7.toNat_lt).symm

theorem parseNumbers_isSome {parts : List Bytes}
    (hnumbers : ∀ part ∈ numberParts parts, (stoull part.2).isSome = true) :
    ∃ env, parseNumbers parts = some env := by
  simp only [numberParts, List.forall_mem_cons, Option.isSome_iff_exists] at hnumbers
  obtain ⟨⟨w1, h1⟩, ⟨w2, h2⟩, ⟨w3, h3⟩, ⟨w4, h4⟩, ⟨w5, h5⟩, ⟨w6, h6⟩, ⟨w7, h7⟩, -⟩ :=
    hnumbers
  simp only [parseNumbers, stoul, h1, h2, h3, h4, h5, h6, h7, Option.bind_eq_bind,
    Option.bind_some, Option.some.injEq, exists_eq']

theorem lineEnvelope_eq_some_iff {line : Bytes} {env : CommandEnvelope} :
    lineEnvelope line = some env ↔
      (ascii "C|").isPrefixOf (dropCarriageReturn line) = true ∧
      9 ≤ (lineParts line).length ∧
      ∃ numbers, parseNumbers (lineParts line) = some numbers ∧
        env = { numbers with
          payloadJson := (Base64.base64Decode ((lineParts line).getD 8 [])).1 } := by
  simp only [lineEnvelope, readLine, lineParts]
  split_ifs with hempty htagged hparts
  · subst hempty
    simp [Reading.envelope, dropCarriageReturn, ascii]
  · simp [Reading.envelope, htagged]
  · simp [Reading.envelope, not_le.2 hparts]
  · cases hnumbers : parseNumbers (segments bar (dropCarriageReturn line)) with
    | none => simp [Reading.envelope]
    | some numbers =>
        simp [Reading.envelope, Bool.eq_true_of_not_eq_false htagged, not_lt.1 hparts,
          eq_comm]

theorem Converts.exists_envelope {line : Bytes} (hconverts : Converts line) :
    ∃ env, lineEnvelope line = some env := by
  obtain ⟨numbers, hnumbers⟩ := parseNumbers_isSome hconverts.numbers
  exact ⟨_, lineEnvelope_eq_some_iff.2
    ⟨hconverts.tagged, hconverts.enough, numbers, hnumbers, rfl⟩⟩

theorem converts_of_envelope {line : Bytes} {env : CommandEnvelope}
    (henvelope : lineEnvelope line = some env) : Converts line := by
  obtain ⟨htagged, henough, numbers, hnumbers, -⟩ := lineEnvelope_eq_some_iff.1 henvelope
  refine ⟨htagged, henough, ?_⟩
  have hwords := parseNumbers_cases hnumbers
  intro part hpart
  obtain ⟨index, hindex, rfl⟩ := List.getElem_of_mem hpart
  obtain ⟨word, hword, -⟩ := hwords.get hindex (hwords.length_eq ▸ hindex)
  simp only [List.get_eq_getElem] at hword
  simp [hword]

/-- The dropped carriage return was the end of the line. -/
theorem exists_carriageReturn (line : Bytes) :
    ∃ ending, line = dropCarriageReturn line ++ ending ∧ bar ∉ ending := by
  unfold dropCarriageReturn
  split_ifs with hlast
  · exact ⟨[13], (List.dropLast_append_getLast? 13 hlast).symm, by decide⟩
  · exact ⟨[], by simp, by simp⟩

theorem count_dropCarriageReturn (line : Bytes) :
    (dropCarriageReturn line).count bar = line.count bar := by
  obtain ⟨ending, hline, hfree⟩ := exists_carriageReturn line
  conv_rhs => rw [hline]
  rw [List.count_append, List.count_eq_zero.2 hfree, Nat.add_zero]

/-- With eight bars at most, nine parts are all there is to the line. -/
theorem nine_parts {line : Bytes} (hbars : line.count bar ≤ 8)
    (henough : 9 ≤ (lineParts line).length) :
    (lineParts line).length = 9 ∧ joined bar (lineParts line) = dropCarriageReturn line := by
  have hlength := length_segments bar (dropCarriageReturn line)
  rw [count_dropCarriageReturn] at hlength
  unfold lineParts at henough ⊢
  split_ifs at hlength with hopen
  · omega
  · exact ⟨by omega, joined_segments hopen⟩

private theorem firstPart {text tag : Bytes} {parts : List Bytes}
    (htagged : (ascii "C|").isPrefixOf text = true) (hparts : segments bar text = tag :: parts) :
    tag = ascii "C" := by
  obtain ⟨rest, rfl⟩ := List.isPrefixOf_iff_prefix.1 htagged
  have htext : ascii "C|" ++ rest = ascii "C" ++ bar :: rest := rfl
  rw [htext, segments_append_delim (by decide)] at hparts
  exact (List.cons.inj hparts).1.symm

private theorem exists_seven {numbers : List Bytes} (hlength : numbers.length = 7) :
    ∃ n1 n2 n3 n4 n5 n6 n7, numbers = [n1, n2, n3, n4, n5, n6, n7] :=
  match numbers, hlength with
  | [n1, n2, n3, n4, n5, n6, n7], _ => ⟨n1, n2, n3, n4, n5, n6, n7, rfl⟩

private theorem exists_nine {parts : List Bytes} (hlength : parts.length = 9) :
    ∃ tag n1 n2 n3 n4 n5 n6 n7 payload,
      parts = [tag, n1, n2, n3, n4, n5, n6, n7, payload] := by
  obtain ⟨tag, rest, rfl⟩ := List.exists_cons_of_length_eq_add_one hlength
  cases rest using List.reverseRecOn with
  | nil => cases hlength
  | append_singleton numbers payload =>
      obtain ⟨n1, n2, n3, n4, n5, n6, n7, rfl⟩ := exists_seven (by simpa using hlength)
      exact ⟨tag, n1, n2, n3, n4, n5, n6, n7, payload, rfl⟩

/-- Without an alias the parts are the documented fields. -/
theorem documented_of_not_aliased {line : Bytes} {env : CommandEnvelope}
    (henvelope : lineEnvelope line = some env) (halias : ¬ Aliased line) :
    Documented line env := by
  obtain ⟨htagged, henough, numbers, hnumbers, rfl⟩ := lineEnvelope_eq_some_iff.1 henvelope
  have hwords := parseNumbers_cases hnumbers
  simp only [Aliased, not_or, not_lt, not_exists, not_and] at halias
  obtain ⟨hbars, hplain⟩ := halias
  obtain ⟨hnine, hjoined⟩ := nine_parts hbars henough
  have hfree : ∀ part ∈ lineParts line, bar ∉ part := fun _ => not_mem_of_mem_segments
  have hfirst : ∀ tag parts, lineParts line = tag :: parts → tag = ascii "C" :=
    fun _ _ => firstPart htagged
  obtain ⟨ending, hline, hending⟩ := exists_carriageReturn line
  rw [← hjoined] at hline
  generalize lineParts line = parts at hnine hwords hplain hfree hfirst hline
  obtain ⟨tag, n1, n2, n3, n4, n5, n6, n7, payload, rfl⟩ := exists_nine hnine
  obtain rfl := hfirst _ _ rfl
  refine ⟨[n1, n2, n3, n4, n5, n6, n7], payload ++ ending, ?_, ?_, ?_⟩
  · rw [hline]
    simp [joined]
  · simp [hfree payload (by simp), hending]
  · exact List.forall₂_map_left_iff.2
      (((List.forall₂_and_left _ _).2 ⟨hplain, hwords⟩).imp fun part number hpart => by
        obtain ⟨hpart, word, hword, rfl⟩ := hpart
        obtain ⟨hnumeral, hsmall⟩ := numeral_of_stoull hword hpart
        rwa [Nat.mod_eq_of_lt hsmall])

theorem envNumbers_lt (env : CommandEnvelope) (parts : List Bytes) :
    List.Forall₂ (fun part number => number < 2 ^ part.1) (numberParts parts)
      (envNumbers env) :=
  .cons env.commandId.toNat_lt (.cons env.command.toNat_lt (.cons env.domain.toNat_lt
    (.cons env.priority.toNat_lt (.cons env.authority.toNat_lt (.cons env.issuedNs.toNat_lt
      (.cons env.ttlNs.toNat_lt .nil))))))

/-- Dropping a carriage return touches the last field only. -/
theorem dropCarriageReturn_append (front payload : Bytes) :
    dropCarriageReturn (front ++ bar :: payload) =
      front ++ bar :: dropCarriageReturn payload := by
  cases payload using List.reverseRecOn with
  | nil => simp [dropCarriageReturn, bar]
  | append_singleton init last =>
      have hline : front ++ bar :: (init ++ [last]) = (front ++ bar :: init) ++ [last] := by simp
      rw [hline]
      simp only [dropCarriageReturn, List.getLast?_concat, Option.some.injEq,
        List.dropLast_concat]
      split_ifs <;> simp

/-- The parts of a documented line are its fields. -/
theorem lineParts_of_documented {numbers : List Bytes} {payload : Bytes}
    (hnumbers : ∀ number ∈ numbers, bar ∉ number) :
    lineParts (joined bar (ascii "C" :: (numbers ++ [payload]))) =
      ascii "C" :: (numbers ++ segments bar (dropCarriageReturn payload)) := by
  have hfree : ∀ piece ∈ ascii "C" :: numbers, bar ∉ piece := by
    simpa using ⟨by decide, hnumbers⟩
  rw [lineParts, joined_concat, dropCarriageReturn_append, segments_joined_append hfree]

theorem bar_not_mem_numeral {text : Bytes} {value : ℕ} (hnumeral : Numeral text value) :
    bar ∉ text :=
  fun hmem => absurd (hnumeral.2.1 bar hmem) (by decide)

/-- A documented line has no alias. -/
theorem Documented.not_aliased {line : Bytes} {env : CommandEnvelope}
    (hdocumented : Documented line env) : ¬ Aliased line := by
  obtain ⟨numbers, payload, rfl, hpayload, hnumerals⟩ := hdocumented
  have hnumbers : ∀ number ∈ numbers, bar ∉ number := by
    intro number hnumber
    obtain ⟨index, hindex, rfl⟩ := List.getElem_of_mem hnumber
    exact bar_not_mem_numeral (hnumerals.get hindex (hnumerals.length_eq ▸ hindex))
  have hlength : numbers.length = 7 := hnumerals.length_eq
  rintro (hbars | ⟨part, hpart, hlenient⟩)
  · rw [count_joined] at hbars
    · simp [hlength] at hbars
    · simpa using ⟨by decide, fun piece hpiece => hpiece.elim (hnumbers piece)
        fun heq => heq ▸ hpayload⟩
  · rw [lineParts_of_documented hnumbers] at hpart
    have hparts : numbers = (numberParts (ascii "C" :: (numbers ++
        segments bar (dropCarriageReturn payload)))).map Prod.snd := by
      obtain ⟨n1, n2, n3, n4, n5, n6, n7, rfl⟩ := exists_seven hlength
      rfl
    rw [hparts, List.forall₂_map_left_iff] at hnumerals
    obtain ⟨index, hindex, rfl⟩ := List.getElem_of_mem hpart
    have hbound := hnumerals.length_eq ▸ hindex
    have hsmall := (envNumbers_lt env _).get hindex hbound
    exact Numeral.not_lenient (hnumerals.get hindex hbound) hsmall hlenient

/-- A line is taken as documented exactly when it is refused or has no alias. -/
theorem takenAsDocumented_iff (line : Bytes) :
    TakenAsDocumented line ↔ ¬ (Converts line ∧ Aliased line) := by
  constructor
  · rintro htaken ⟨hconverts, halias⟩
    obtain ⟨env, henvelope⟩ := hconverts.exists_envelope
    exact (htaken env henvelope).not_aliased halias
  · intro hnot env henvelope
    exact documented_of_not_aliased henvelope fun halias =>
      hnot ⟨converts_of_envelope henvelope, halias⟩

/-- The number of `EmergencyStop` plus `2 ^ 16`. -/
private def aliasedStop : Bytes := ascii "C|1|66236|6|1|1|0|0|AA=="

/-- A line with another command number is submitted as an emergency stop. -/
theorem aliased_command_is_emergencyStop :
    (lineEnvelope aliasedStop).map CommandEnvelope.command = some UgvCommand.emergencyStop.wire ∧
      ¬ TakenAsDocumented aliasedStop := by
  have hcommand : (lineEnvelope aliasedStop).map CommandEnvelope.command =
      some UgvCommand.emergencyStop.wire := by
    decide +kernel
  refine ⟨hcommand, fun htaken => ?_⟩
  obtain ⟨env, henvelope, -⟩ := Option.map_eq_some_iff.1 hcommand
  refine (htaken env henvelope).not_aliased (Or.inr ⟨(16, ascii "66236"), by decide +kernel, ?_⟩)
  exact ⟨[], [], ascii "66236", [], ⟨rfl, by simp, Or.inl rfl, by decide +kernel,
    by decide +kernel, by simp, by decide +kernel⟩, by decide +kernel⟩

end ArcravenUgv.Grammar
