import Mathlib.Data.List.TakeWhile
import Mathlib.Tactic

/-!
# Delimited text

Reading text up to a delimiter, one piece after another, the way a stream
reader does: a piece ends at the delimiter, which is dropped, or at the end of
the text, and an empty piece at the very end is not produced.  The second half
is about a reader that follows a growing text and remembers only an offset.
-/

namespace ArcravenUgv.Delimited

variable {A : Type*} [DecidableEq A]

/-- The pieces a reader takes off a text, in order. -/
def segments (delim : A) : List A → List (List A)
  | [] => []
  | head :: rest =>
      if head = delim then [] :: segments delim rest
      else
        match segments delim rest with
        | [] => [[head]]
        | piece :: pieces => (head :: piece) :: pieces

/-- The next piece at the front of a text. -/
def nextSegment (delim : A) (text : List A) : List A :=
  text.takeWhile (· ≠ delim)

/-- Pieces put back together, one delimiter between two neighbours. -/
def joined (delim : A) : List (List A) → List A
  | [] => []
  | [last] => last
  | piece :: pieces => piece ++ delim :: joined delim pieces

omit [DecidableEq A] in
theorem mem_joined {delim char : A} {pieces : List (List A)}
    (hmem : char ∈ joined delim pieces) :
    char = delim ∨ ∃ piece ∈ pieces, char ∈ piece := by
  induction pieces with
  | nil => simp [joined] at hmem
  | cons piece pieces ih =>
      cases pieces with
      | nil => exact Or.inr ⟨piece, by simp, by simpa [joined] using hmem⟩
      | cons next rest =>
          simp only [joined, List.mem_append, List.mem_cons] at hmem
          rcases hmem with hmem | hmem | hmem
          · exact Or.inr ⟨piece, by simp, hmem⟩
          · exact Or.inl hmem
          · rcases ih (by simpa [joined] using hmem) with hdelim | ⟨field, hfield, hchar⟩
            · exact Or.inl hdelim
            · exact Or.inr ⟨field, List.mem_cons_of_mem _ hfield, hchar⟩

omit [DecidableEq A] in
theorem joined_cons_cons (delim : A) (piece next : List A) (pieces : List (List A)) :
    joined delim (piece :: next :: pieces) = piece ++ delim :: joined delim (next :: pieces) :=
  rfl

omit [DecidableEq A] in
/-- The last piece stands behind the last delimiter. -/
theorem joined_concat (delim : A) (head last : List A) (pieces : List (List A)) :
    joined delim (head :: (pieces ++ [last])) =
      joined delim (head :: pieces) ++ delim :: last := by
  induction pieces generalizing head with
  | nil => rfl
  | cons piece pieces ih =>
      rw [List.cons_append, joined_cons_cons, ih, joined_cons_cons, List.append_assoc,
        List.cons_append]

/-- One delimiter stands between two neighbours. -/
theorem count_joined {delim : A} {head : List A} {pieces : List (List A)}
    (hfree : ∀ piece ∈ head :: pieces, delim ∉ piece) :
    (joined delim (head :: pieces)).count delim = pieces.length := by
  induction pieces generalizing head with
  | nil => simpa [joined] using List.count_eq_zero.2 (hfree head (by simp))
  | cons piece pieces ih =>
      have hhead : head.count delim = 0 := List.count_eq_zero.2 (hfree head (by simp))
      rw [joined_cons_cons, List.count_append, List.count_cons_self, hhead,
        ih fun other hother => hfree other (List.mem_cons_of_mem _ hother), Nat.zero_add,
        List.length_cons]

/-- Splitting leaves no delimiter and adds nothing. -/
theorem not_mem_of_mem_splitOn {delim : A} {text piece : List A}
    (hpiece : piece ∈ text.splitOn delim) : delim ∉ piece ∧ piece ⊆ text := by
  induction text generalizing piece with
  | nil =>
      rw [List.splitOn_nil, List.mem_singleton] at hpiece
      simp [hpiece]
  | cons head rest ih =>
      rw [List.splitOn_cons_eq_if_modifyHead] at hpiece
      obtain ⟨first, others, hrest⟩ := List.exists_cons_of_ne_nil (List.splitOn_ne_nil delim rest)
      rw [hrest] at hpiece ih
      by_cases hhead : head = delim
      · rw [if_pos (by simpa using hhead)] at hpiece
        rcases List.mem_cons.1 hpiece with rfl | hpiece
        · simp
        · exact ⟨(ih hpiece).1, List.subset_cons_of_subset head (ih hpiece).2⟩
      · rw [if_neg (by simpa using hhead), List.modifyHead_cons] at hpiece
        rcases List.mem_cons.1 hpiece with rfl | hpiece
        · obtain ⟨hfirst, hsub⟩ := ih (List.mem_cons_self ..)
          exact ⟨by simp [hfirst, Ne.symm hhead], List.cons_subset_cons head hsub⟩
        · obtain ⟨hother, hsub⟩ := ih (List.mem_cons_of_mem _ hpiece)
          exact ⟨hother, List.subset_cons_of_subset head hsub⟩

omit [DecidableEq A] in
/-- Every piece but the first stands behind its own delimiter. -/
theorem joined_eq_flatMap (delim : A) (head : List A) (pieces : List (List A)) :
    joined delim (head :: pieces) = head ++ pieces.flatMap (delim :: ·) := by
  induction pieces generalizing head with
  | nil => simp [joined]
  | cons piece pieces ih => rw [joined_cons_cons, ih, List.flatMap_cons, List.cons_append]

/-- Splitting at every delimiter gives all pieces back, empty ones too. -/
theorem splitOn_joined {delim : A} {head : List A} {pieces : List (List A)}
    (hfree : ∀ piece ∈ head :: pieces, delim ∉ piece) :
    (joined delim (head :: pieces)).splitOn delim = head :: pieces := by
  induction pieces generalizing head with
  | nil => exact List.splitOn_eq_singleton (hfree head (by simp))
  | cons piece pieces ih =>
      rw [joined_cons_cons, List.splitOn_append_cons_self_of_not_mem (hfree head (by simp)),
        ih fun other hother => hfree other (List.mem_cons_of_mem _ hother)]

@[simp]
theorem segments_nil (delim : A) : segments delim [] = [] := rfl

theorem segments_append_delim {delim : A} {piece : List A}
    (hfree : delim ∉ piece) (rest : List A) :
    segments delim (piece ++ delim :: rest) = piece :: segments delim rest := by
  induction piece with
  | nil => simp [segments]
  | cons head tail ih =>
      have hhead : head ≠ delim := fun heq => hfree (by simp [heq])
      have htail : delim ∉ tail := fun hmem => hfree (List.mem_cons_of_mem _ hmem)
      simp [segments, hhead, ih htail]

theorem segments_last {delim : A} {piece : List A}
    (hfree : delim ∉ piece) (hnonempty : piece ≠ []) :
    segments delim piece = [piece] := by
  induction piece with
  | nil => exact absurd rfl hnonempty
  | cons head tail ih =>
      have hhead : head ≠ delim := fun heq => hfree (by simp [heq])
      have htail : delim ∉ tail := fun hmem => hfree (List.mem_cons_of_mem _ hmem)
      cases tail with
      | nil => simp [segments, hhead]
      | cons next rest =>
          rw [segments, if_neg hhead, ih htail (by simp)]

/-- Whole pieces come off the front of a text one by one. -/
theorem segments_joined_append {delim : A} {head : List A} {pieces : List (List A)}
    (hfree : ∀ piece ∈ head :: pieces, delim ∉ piece) (rest : List A) :
    segments delim (joined delim (head :: pieces) ++ delim :: rest) =
      head :: (pieces ++ segments delim rest) := by
  induction pieces generalizing head with
  | nil => rw [joined, segments_append_delim (hfree head (by simp)), List.nil_append]
  | cons piece pieces ih =>
      rw [joined_cons_cons, List.append_assoc, List.cons_append,
        segments_append_delim (hfree head (by simp)),
        ih fun other hother => hfree other (List.mem_cons_of_mem _ hother), List.cons_append]

/-- Joining pieces free of the delimiter and splitting again gives the pieces
back, as long as the last of them is not empty. -/
theorem segments_joined {delim : A} {pieces : List (List A)}
    (hfree : ∀ piece ∈ pieces, delim ∉ piece)
    (hlast : pieces.getLast? ≠ some []) :
    segments delim (joined delim pieces) = pieces := by
  induction pieces with
  | nil => rfl
  | cons piece pieces ih =>
      cases pieces with
      | nil =>
          exact segments_last (hfree piece (by simp)) (by simpa [joined] using hlast)
      | cons next rest =>
          rw [joined, segments_append_delim (hfree piece (by simp))]
          · rw [ih (fun field hfield => hfree field (by simp [hfield]))
              (by simpa using hlast)]
          · simp

/-- An empty last piece is lost: nothing follows the last delimiter. -/
theorem segments_joined_append_nil {delim : A} {pieces : List (List A)}
    (hfree : ∀ piece ∈ pieces, delim ∉ piece) :
    segments delim (joined delim (pieces ++ [[]])) = pieces := by
  induction pieces with
  | nil => rfl
  | cons piece pieces ih =>
      rw [List.cons_append, joined, segments_append_delim (hfree piece (by simp)),
        ih fun field hfield => hfree field (by simp [hfield])]
      simp

/-- A text of whole pieces, each with its delimiter behind it. -/
theorem segments_flatMap {delim : A} {pieces : List (List A)}
    (hfree : ∀ piece ∈ pieces, delim ∉ piece) :
    segments delim (pieces.flatMap fun piece => piece ++ [delim]) = pieces := by
  induction pieces with
  | nil => rfl
  | cons piece pieces ih =>
      rw [List.flatMap_cons, List.append_assoc, List.singleton_append,
        segments_append_delim (hfree piece (by simp)),
        ih fun other hother => hfree other (List.mem_cons_of_mem _ hother)]

theorem segments_eq_nil_iff {delim : A} {text : List A} :
    segments delim text = [] ↔ text = [] := by
  cases text with
  | nil => simp
  | cons head rest =>
      simp only [segments]
      split
      · simp
      · split <;> simp

/-- The first piece and what is left after it. -/
theorem segments_eq_cons {delim : A} {text : List A} (hnonempty : text ≠ []) :
    segments delim text =
      nextSegment delim text ::
        segments delim (text.drop ((nextSegment delim text).length + 1)) := by
  induction text with
  | nil => exact absurd rfl hnonempty
  | cons head rest ih =>
      by_cases hhead : head = delim
      · simp [segments, nextSegment, hhead]
      · cases rest with
        | nil => simp [segments, nextSegment, hhead]
        | cons next later =>
            rw [segments, if_neg hhead, ih (by simp)]
            simp [nextSegment, hhead]

theorem not_mem_nextSegment {delim : A} (text : List A) :
    delim ∉ nextSegment delim text := by
  intro hmem
  simpa using List.mem_takeWhile_imp hmem

theorem nextSegment_append {delim : A} {piece : List A} (hfree : delim ∉ piece)
    (rest : List A) : nextSegment delim (piece ++ delim :: rest) = piece := by
  rw [nextSegment, List.takeWhile_append_of_pos fun char hchar => by
    simpa using fun heq : char = delim => hfree (heq ▸ hchar)]
  simp

theorem not_mem_of_mem_segments {delim : A} {text piece : List A}
    (hpiece : piece ∈ segments delim text) : delim ∉ piece := by
  induction hlength : text.length using Nat.strong_induction_on
    generalizing text with
  | _ length ih =>
      by_cases hnonempty : text = []
      · simp [hnonempty] at hpiece
      · rw [segments_eq_cons hnonempty, List.mem_cons] at hpiece
        rcases hpiece with rfl | hpiece
        · exact not_mem_nextSegment text
        · refine ih _ ?_ hpiece rfl
          have hpos : 0 < text.length := List.length_pos_of_ne_nil hnonempty
          simp only [List.length_drop]
          omega

/-! ## Growing text -/

/-- The text is empty or ends with the delimiter, so whatever is appended
starts a new piece. -/
def Terminated (delim : A) (text : List A) : Prop :=
  text = [] ∨ text.getLast? = some delim

/-- An append that leaves every piece already there as it is: the text is
terminated, or the delimiter comes first. -/
def StartsPiece (delim : A) (text chunk : List A) : Prop :=
  Terminated delim text ∨ chunk = [] ∨ chunk.head? = some delim

instance (delim : A) (text : List A) : Decidable (Terminated delim text) :=
  inferInstanceAs (Decidable (_ ∨ _))

instance (delim : A) (text chunk : List A) :
    Decidable (StartsPiece delim text chunk) :=
  inferInstanceAs (Decidable (_ ∨ _ ∨ _))

theorem segments_append_of_terminated {delim : A} {text : List A}
    (hterminated : Terminated delim text) (chunk : List A) :
    segments delim (text ++ chunk) =
      segments delim text ++ segments delim chunk := by
  induction text with
  | nil => simp
  | cons head rest ih =>
      by_cases hrest : rest = []
      · subst hrest
        have hhead : head = delim := by simpa [Terminated] using hterminated
        simp [segments, hhead]
      · have htail : Terminated delim rest := by
          obtain ⟨next, later, rfl⟩ := List.exists_cons_of_ne_nil hrest
          simpa [Terminated] using hterminated
        rw [List.cons_append, segments, ih htail, segments]
        split
        · simp
        · obtain ⟨piece, pieces, hpieces⟩ := List.exists_cons_of_ne_nil
            (mt segments_eq_nil_iff.1 hrest : segments delim rest ≠ [])
          simp [hpieces]

theorem segments_append_delim_of_not_terminated {delim : A} {text : List A}
    (hopen : ¬ Terminated delim text) (rest : List A) :
    segments delim (text ++ delim :: rest) =
      segments delim text ++ segments delim rest := by
  induction text with
  | nil => exact absurd (Or.inl rfl) hopen
  | cons head tail ih =>
      by_cases htail : tail = []
      · subst htail
        have hhead : head ≠ delim := fun heq => hopen (Or.inr (by simp [heq]))
        simp [segments, hhead]
      · have hopen' : ¬ Terminated delim tail := by
          obtain ⟨next, later, rfl⟩ := List.exists_cons_of_ne_nil htail
          simpa [Terminated] using hopen
        rw [List.cons_append, segments, ih hopen', segments]
        split
        · simp
        · obtain ⟨piece, pieces, hpieces⟩ := List.exists_cons_of_ne_nil
            (mt segments_eq_nil_iff.1 htail : segments delim tail ≠ [])
          simp [hpieces]

/-- Every delimiter ends a piece, and an open end is one piece more. -/
theorem length_segments (delim : A) (text : List A) :
    (segments delim text).length =
      text.count delim + if Terminated delim text then 0 else 1 := by
  induction text with
  | nil => simp [Terminated]
  | cons head rest ih =>
      cases rest with
      | nil =>
          by_cases hhead : head = delim
          · simp [segments, Terminated, hhead]
          · simp [segments, Terminated, hhead]
      | cons next later =>
          have hend : Terminated delim (head :: next :: later) ↔
              Terminated delim (next :: later) := by
            simp [Terminated]
          obtain ⟨piece, pieces, hpieces⟩ := List.exists_cons_of_ne_nil
            (mt segments_eq_nil_iff.1 (List.cons_ne_nil next later) :
              segments delim (next :: later) ≠ [])
          rw [hpieces] at ih
          by_cases hhead : head = delim
          · rw [segments, if_pos hhead, hpieces, if_congr hend rfl rfl, hhead,
              List.count_cons_self, List.length_cons, ih]
            omega
          · rw [segments, if_neg hhead, hpieces, if_congr hend rfl rfl,
              List.count_cons_of_ne hhead, ← ih]
            rfl

/-- A text that does not end with the delimiter is its pieces put back
together. -/
theorem joined_segments {delim : A} {text : List A} (hopen : ¬ Terminated delim text) :
    joined delim (segments delim text) = text := by
  induction text with
  | nil => rfl
  | cons head rest ih =>
      cases rest with
      | nil =>
          have hhead : head ≠ delim := fun heq => hopen (Or.inr (by simp [heq]))
          simp [segments, hhead, joined]
      | cons next later =>
          have hrest : ¬ Terminated delim (next :: later) := by
            simpa [Terminated] using hopen
          have htail := ih hrest
          obtain ⟨piece, pieces, hpieces⟩ := List.exists_cons_of_ne_nil
            (mt segments_eq_nil_iff.1 (List.cons_ne_nil next later) :
              segments delim (next :: later) ≠ [])
          rw [hpieces] at htail
          by_cases hhead : head = delim
          · rw [segments, if_pos hhead, hpieces, joined, htail, hhead]
            · rfl
            · simp
          · rw [segments, if_neg hhead, hpieces, ← htail]
            cases pieces <;> rfl

/-- Such an append only adds pieces. -/
theorem segments_prefix_of_startsPiece {delim : A} {text chunk : List A}
    (hstarts : StartsPiece delim text chunk) :
    segments delim text <+: segments delim (text ++ chunk) := by
  by_cases hterminated : Terminated delim text
  · rw [segments_append_of_terminated hterminated]
    exact List.prefix_append _ _
  · rcases hstarts with hstarts | rfl | hhead
    · exact absurd hstarts hterminated
    · simp
    · obtain ⟨rest, rfl⟩ := List.head?_eq_some_iff.1 hhead
      rw [segments_append_delim_of_not_terminated hterminated]
      exact List.prefix_append _ _

/-- The offset just behind some pieces and their delimiters. -/
def extent (pieces : List (List A)) : ℕ :=
  (pieces.map fun piece => piece.length + 1).sum

omit [DecidableEq A] in
@[simp]
theorem extent_append (left right : List (List A)) :
    extent (left ++ right) = extent left + extent right := by
  simp [extent]

omit [DecidableEq A] in
@[simp]
theorem extent_singleton (piece : List A) :
    extent [piece] = piece.length + 1 := by
  simp [extent]

/-- The pieces of a text with the offset of each. -/
def placed (start : ℕ) : List (List A) → List (ℕ × List A)
  | [] => []
  | piece :: pieces => (start, piece) :: placed (start + (piece.length + 1)) pieces

omit [DecidableEq A] in
theorem placed_append (start : ℕ) (left right : List (List A)) :
    placed start (left ++ right) =
      placed start left ++ placed (start + extent left) right := by
  induction left generalizing start with
  | nil => simp [placed, extent]
  | cons piece left ih =>
      simp [placed, ih, extent, Nat.add_assoc]

omit [DecidableEq A] in
@[simp]
theorem map_snd_placed (start : ℕ) (pieces : List (List A)) :
    (placed start pieces).map Prod.snd = pieces := by
  induction pieces generalizing start with
  | nil => rfl
  | cons piece pieces ih => simp [placed, ih]

omit [DecidableEq A] in
theorem le_of_mem_placed {start : ℕ} {pieces : List (List A)} {entry : ℕ × List A}
    (hmem : entry ∈ placed start pieces) : start ≤ entry.1 := by
  induction pieces generalizing start with
  | nil => cases hmem
  | cons piece pieces ih =>
      rcases List.mem_cons.1 hmem with rfl | hmem
      · exact Nat.le_refl _
      · exact Nat.le_trans (by omega) (ih hmem)

omit [DecidableEq A] in
/-- No two pieces stand at the same offset. -/
theorem pairwise_placed (start : ℕ) (pieces : List (List A)) :
    (placed start pieces).Pairwise fun before after => before.1 < after.1 := by
  induction pieces generalizing start with
  | nil => exact List.Pairwise.nil
  | cons piece pieces ih =>
      refine List.pairwise_cons.2 ⟨fun entry hentry => ?_, ih _⟩
      have hle := le_of_mem_placed hentry
      simp only
      omega

/-- Behind the pieces taken so far a reader finds exactly the others. -/
theorem segments_drop_extent {delim : A} {text : List A}
    {taken others : List (List A)}
    (hpieces : segments delim text = taken ++ others) :
    segments delim (text.drop (extent taken)) = others := by
  induction taken generalizing text with
  | nil => simpa [extent] using hpieces
  | cons piece taken ih =>
      have hnonempty : text ≠ [] := by
        rintro rfl
        simp at hpieces
      rw [segments_eq_cons hnonempty, List.cons_append, List.cons.injEq] at hpieces
      obtain ⟨rfl, hothers⟩ := hpieces
      have hextent : extent (nextSegment delim text :: taken) =
          (nextSegment delim text).length + 1 + extent taken := by
        simp [extent]
      rw [hextent, ← List.drop_drop]
      exact ih hothers

/-- A reader at the offset behind `taken` that still finds text takes the piece
that follows `taken`. -/
theorem next_of_taken {delim : A} {text : List A} {taken : List (List A)}
    (hleading : taken <+: segments delim text)
    (hmore : text.drop (extent taken) ≠ []) :
    taken ++ [nextSegment delim (text.drop (extent taken))] <+:
      segments delim text := by
  obtain ⟨others, hothers⟩ := hleading
  have hdrop := segments_drop_extent hothers.symm
  rw [segments_eq_cons hmore] at hdrop
  rw [← hothers, ← hdrop]
  simp

/-- A reader who is behind a text has taken its pieces. -/
theorem segments_taken {delim : A} {text : List A} {taken pieces : List (List A)}
    (hsegments : segments delim text <+: pieces) (htaken : taken <+: pieces)
    (hlength : text.length ≤ extent taken) : segments delim text <+: taken := by
  rcases List.prefix_or_prefix_of_prefix hsegments htaken with hdone | ⟨others, hothers⟩
  · exact hdone
  · have hrest := segments_drop_extent hothers.symm
    rw [List.drop_eq_nil_of_le hlength, segments_nil] at hrest
    rw [← hothers, ← hrest, List.append_nil]

/-! ## Pieces with their delimiters -/

/-- The pieces of a text, each with the delimiter that ends it; the last one may
lack it. -/
def records (delim : A) : List A → List (List A)
  | [] => []
  | head :: rest =>
      if head = delim then [delim] :: records delim rest
      else
        match records delim rest with
        | [] => [[head]]
        | piece :: pieces => (head :: piece) :: pieces

@[simp]
theorem records_nil (delim : A) : records delim [] = [] := rfl

theorem records_append_delim {delim : A} {piece : List A} (hfree : delim ∉ piece)
    (rest : List A) :
    records delim (piece ++ delim :: rest) = (piece ++ [delim]) :: records delim rest := by
  induction piece with
  | nil => simp [records]
  | cons head tail ih =>
      have hhead : head ≠ delim := fun heq => hfree (by simp [heq])
      have htail : delim ∉ tail := fun hmem => hfree (List.mem_cons_of_mem _ hmem)
      simp [records, hhead, ih htail]

theorem records_last {delim : A} {piece : List A} (hfree : delim ∉ piece)
    (hnonempty : piece ≠ []) : records delim piece = [piece] := by
  induction piece with
  | nil => exact absurd rfl hnonempty
  | cons head tail ih =>
      have hhead : head ≠ delim := fun heq => hfree (by simp [heq])
      have htail : delim ∉ tail := fun hmem => hfree (List.mem_cons_of_mem _ hmem)
      cases tail with
      | nil => simp [records, hhead]
      | cons next rest => rw [records, if_neg hhead, ih htail (by simp)]

theorem flatten_records (delim : A) (text : List A) : (records delim text).flatten = text := by
  induction text with
  | nil => rfl
  | cons head rest ih =>
      rw [records]
      split
      · rename_i hhead
        rw [List.flatten_cons, ih, hhead, List.singleton_append]
      · split
        · rename_i hrest
          rw [← ih, hrest]
          rfl
        · rename_i piece pieces hrest
          rw [← ih, hrest]
          rfl

/-- A record is a piece with its delimiter or the last piece without it. -/
theorem exists_of_mem_records {delim : A} {text record : List A}
    (hrecord : record ∈ records delim text) :
    ∃ piece, delim ∉ piece ∧ (record = piece ++ [delim] ∨ record = piece) := by
  induction text generalizing record with
  | nil => cases hrecord
  | cons head rest ih =>
      rw [records] at hrecord
      split at hrecord
      · rcases List.mem_cons.1 hrecord with rfl | hrecord
        · exact ⟨[], by simp, .inl rfl⟩
        · exact ih hrecord
      · rename_i hhead
        split at hrecord
        · obtain rfl := List.mem_singleton.1 hrecord
          exact ⟨[head], by simp [Ne.symm hhead], .inr rfl⟩
        · rename_i first others hrest
          rw [hrest] at ih
          rcases List.mem_cons.1 hrecord with rfl | hrecord
          · obtain ⟨piece, hpiece, heq⟩ := ih (List.mem_cons_self ..)
            refine ⟨head :: piece, by simp [hpiece, Ne.symm hhead], ?_⟩
            exact heq.imp (fun h => by rw [h, List.cons_append]) fun h => by rw [h]
          · exact ih (List.mem_cons_of_mem _ hrecord)

theorem ne_nil_of_mem_records {delim : A} {text record : List A}
    (hrecord : record ∈ records delim text) : record ≠ [] := by
  induction text with
  | nil => cases hrecord
  | cons head rest ih =>
      rw [records] at hrecord
      split at hrecord
      · rcases List.mem_cons.1 hrecord with rfl | hrecord
        · simp
        · exact ih hrecord
      · split at hrecord
        · simp [List.mem_singleton.1 hrecord]
        · rename_i first others hrest
          rw [hrest] at ih
          rcases List.mem_cons.1 hrecord with rfl | hrecord
          · simp
          · exact ih (List.mem_cons_of_mem _ hrecord)

end ArcravenUgv.Delimited
