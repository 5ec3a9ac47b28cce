import Semasm.Library.Replacement

/-!
# Marks left by replacement

Two texts that came from one text by replacing different copies of a pattern
differ first where one has the marker that starts the label and the other the
first symbol of the pattern. If no later pattern contains the marker, and labels
are told apart by the symbol after it, no later replacement makes the texts equal
again.
-/

namespace Semasm.Library.Replacement

variable {α κ : Type}

/-- Some copies of a pattern are replaced, without overlap. -/
inductive Rewrites (pattern replacement : List α) : List α → List α → Prop where
  | nil : Rewrites pattern replacement [] []
  | keep (a : α) {text written : List α} (rest : Rewrites pattern replacement text written) :
      Rewrites pattern replacement (a :: text) (a :: written)
  | copy {text written : List α} (rest : Rewrites pattern replacement text written) :
      Rewrites pattern replacement (pattern ++ text) (replacement ++ written)

/-- Symbols before a rewritten text may all be kept. -/
theorem Rewrites.append {pattern replacement text written : List α}
    (rest : Rewrites pattern replacement text written) (kept : List α) :
    Rewrites pattern replacement (kept ++ text) (kept ++ written) := by
  induction kept with
  | nil => exact rest
  | cons a kept inductionHypothesis => exact .keep a inductionHypothesis

/-- A scan rewrites what it has not passed. -/
theorem scan_rewrites [DecidableEq α] {pattern : List α} (nonempty : pattern ≠ [])
    (replacement : List α) (pending : Nat) (text : List α) :
    Rewrites pattern replacement (text.drop pending)
      (scan pattern replacement pending text) := by
  obtain ⟨first, others, rfl⟩ := List.exists_cons_of_ne_nil nonempty
  induction text generalizing pending with
  | nil => simpa [scan] using Rewrites.nil
  | cons a text inductionHypothesis =>
    cases pending with
    | succ pending => exact inductionHypothesis pending
    | zero =>
      rw [List.drop_zero, scan]
      split
      next found =>
        rw [List.isPrefixOf_iff_prefix, List.cons_prefix_cons] at found
        obtain ⟨rfl, rest, rfl⟩ := found
        have passed := inductionHypothesis others.length
        rw [List.drop_left] at passed
        exact .copy passed
      next missed => exact .keep a (inductionHypothesis 0)

theorem replaceAll_rewrites [DecidableEq α] {pattern : List α} (nonempty : pattern ≠ [])
    (replacement text : List α) :
    Rewrites pattern replacement text (replaceAll pattern replacement text) := by
  rw [replaceAll, if_neg nonempty]
  exact scan_rewrites nonempty replacement 0 text

/-- Labelling one name rewrites the copies at its holes. -/
theorem render_rewrites [DecidableEq κ] (value : κ → List α) (name : κ) (label : List α)
    (segments : List (Segment α κ)) :
    Rewrites (value name) label (render value segments)
      (render (Function.update value name label) segments) := by
  induction segments with
  | nil => exact .nil
  | cons segment segments inductionHypothesis =>
    rw [render_cons, render_cons]
    by_cases here : segment = .hole name
    · subst here
      simpa [Segment.render] using Rewrites.copy inductionHypothesis
    · rw [render_update_other here]
      exact inductionHypothesis.append _

/-! ## Texts that stay apart -/

/-- Markers, then one of the symbols that tell the labels apart. -/
inductive Tagged (marker : α) (initials : List α) : List α → Prop where
  | here {a : α} (text : List α) (member : a ∈ initials) (other : a ≠ marker) :
      Tagged marker initials (a :: text)
  | later {text : List α} (rest : Tagged marker initials text) :
      Tagged marker initials (marker :: text)

/-- After a common beginning, one text has a label and the other has none, or the
    two have different labels. -/
inductive Apart (marker : α) (initials : List α) : List α → List α → Prop where
  | left {text other : List α} (tagged : Tagged marker initials text)
      (plain : other.head? ≠ some marker) : Apart marker initials (marker :: text) other
  | right {text other : List α} (tagged : Tagged marker initials text)
      (plain : other.head? ≠ some marker) : Apart marker initials other (marker :: text)
  | labels {a b : α} (text other : List α) (different : a ≠ b) (first : a ≠ marker)
      (second : b ≠ marker) : Apart marker initials (marker :: a :: text) (marker :: b :: other)
  | common (a : α) {text other : List α} (rest : Apart marker initials text other) :
      Apart marker initials (a :: text) (a :: other)

theorem Apart.symm {marker : α} {initials text other : List α}
    (apart : Apart marker initials text other) : Apart marker initials other text := by
  induction apart with
  | left tagged plain => exact .right tagged plain
  | right tagged plain => exact .left tagged plain
  | labels text other different first second => exact .labels _ _ different.symm second first
  | common a rest inductionHypothesis => exact .common a inductionHypothesis

theorem Apart.ne {marker : α} {initials text other : List α}
    (apart : Apart marker initials text other) : text ≠ other := by
  induction apart with
  | left tagged plain =>
    rintro rfl
    exact plain rfl
  | right tagged plain =>
    rintro rfl
    exact plain rfl
  | labels text other different first second => simp [different]
  | common a rest inductionHypothesis => simpa using inductionHypothesis

/-- Texts apart stay so after any common beginning. -/
theorem Apart.append {marker : α} {initials text other : List α}
    (apart : Apart marker initials text other) (shared : List α) :
    Apart marker initials (shared ++ text) (shared ++ other) := by
  induction shared with
  | nil => exact apart
  | cons a shared inductionHypothesis => exact .common a inductionHypothesis

/-- A common first symbol other than the marker can be taken away. -/
theorem Apart.of_cons {marker a : α} {initials text other : List α} (plain : a ≠ marker)
    (apart : Apart marker initials (a :: text) (a :: other)) : Apart marker initials text other := by
  cases apart with
  | left => exact absurd rfl plain
  | right => exact absurd rfl plain
  | labels => exact absurd rfl plain
  | common a rest => exact rest

/-- A common beginning without the marker can be taken away. -/
theorem Apart.of_append {marker : α} {initials text other shared : List α}
    (absent : marker ∉ shared) (apart : Apart marker initials (shared ++ text) (shared ++ other)) :
    Apart marker initials text other := by
  induction shared with
  | nil => exact apart
  | cons a shared inductionHypothesis =>
    rw [List.mem_cons, not_or] at absent
    exact inductionHypothesis absent.2 (apart.of_cons (Ne.symm absent.1))

/-- The first symbol of a text is kept, or it begins a copy that is replaced. -/
theorem Rewrites.of_cons {first a : α} {others replacement text written : List α}
    (rewrites : Rewrites (first :: others) replacement (a :: text) written) :
    (∃ rest, written = a :: rest ∧ Rewrites (first :: others) replacement text rest) ∨
      (a = first ∧ ∃ after rest, text = others ++ after ∧ written = replacement ++ rest ∧
        Rewrites (first :: others) replacement after rest) := by
  cases rewrites with
  | keep a rest => exact .inl ⟨_, rfl, rest⟩
  | copy rest => exact .inr ⟨rfl, _, _, rfl, rfl, rest⟩

/-- A tag stays when copies of a pattern without the marker are replaced by a
    label. -/
theorem Tagged.rewrites {marker initial first : α} {initials others tail text written : List α}
    (tagged : Tagged marker initials text) (absent : marker ∉ first :: others)
    (other : initial ≠ marker)
    (rewrites : Rewrites (first :: others) (marker :: initial :: tail) text written) :
    Tagged marker (initial :: initials) written := by
  induction tagged generalizing written with
  | here text member plain =>
    obtain ⟨rest, rfl, -⟩ | ⟨-, after, rest, -, rfl, -⟩ := rewrites.of_cons
    · exact .here _ (List.mem_cons_of_mem _ member) plain
    · exact .later (.here _ List.mem_cons_self other)
  | later rest inductionHypothesis =>
    obtain ⟨written, rfl, rewritten⟩ | ⟨rfl, -⟩ := rewrites.of_cons
    · exact .later (inductionHypothesis rewritten)
    · exact absurd List.mem_cons_self absent

/-- From one text, two rewritings give the same text or texts that are apart. -/
theorem Rewrites.eq_or_apart {marker initial first : α} {others tail text written other : List α}
    (absent : marker ∉ first :: others) (plain : initial ≠ marker)
    (left : Rewrites (first :: others) (marker :: initial :: tail) text written)
    (right : Rewrites (first :: others) (marker :: initial :: tail) text other) :
    written = other ∨ Apart marker [initial] written other := by
  have symbol : first ≠ marker := fun same => absent (by simp [same])
  have tag (rest : List α) : Tagged marker [initial] (initial :: rest) :=
    .here rest (by simp) plain
  induction left generalizing other with
  | nil =>
    cases right with
    | nil => exact .inl rfl
  | keep a rest inductionHypothesis =>
    obtain ⟨other, rfl, remaining⟩ | ⟨rfl, after, other, -, rfl, -⟩ := right.of_cons
    · obtain same | apart := inductionHypothesis remaining
      · exact .inl (by rw [same])
      · exact .inr (.common a apart)
    · exact .inr (.right (tag _) (by simpa using symbol))
  | copy rest inductionHypothesis =>
    rw [List.cons_append] at right
    obtain ⟨other, rfl, -⟩ | ⟨-, after, other, copied, rfl, remaining⟩ := right.of_cons
    · exact .inr (.left (tag _) (by simpa using symbol))
    · rw [List.append_cancel_left copied] at inductionHypothesis
      obtain same | apart := inductionHypothesis remaining
      · exact .inl (by rw [same])
      · exact .inr (apart.append _)

section Step

variable {marker initial first : α} {initials others tail : List α}

/-- The step at a marker that the other text lacks. A label written beside the
    marker is told from the tag by its initial. -/
theorem Tagged.apart_rewrites {text other written read : List α}
    (absent : marker ∉ first :: others) (plain : initial ≠ marker) (fresh : initial ∉ initials)
    (tagged : Tagged marker initials text) (unmarked : other.head? ≠ some marker)
    (left : Rewrites (first :: others) (marker :: initial :: tail) (marker :: text) written)
    (right : Rewrites (first :: others) (marker :: initial :: tail) other read) :
    Apart marker (initial :: initials) written read := by
  have symbol : first ≠ marker := fun same => absent (by simp [same])
  obtain ⟨afterMarker, rfl, kept⟩ | ⟨same, -⟩ := left.of_cons
  · have retagged := tagged.rewrites absent plain kept
    cases other with
    | nil =>
      cases right with
      | nil => exact .left retagged (by simp)
    | cons b other =>
      obtain ⟨afterOther, rfl, -⟩ | ⟨rfl, -, afterCopy, -, rfl, -⟩ := right.of_cons
      · exact .left retagged (by simpa using unmarked)
      · cases tagged with
        | later tagged =>
          obtain ⟨afterLater, rfl, keptLater⟩ | ⟨same, -⟩ := kept.of_cons
          · exact .common marker
              (.left (tagged.rewrites absent plain keptLater) (by simpa using plain))
          · exact absurd same.symm symbol
        | here text member other =>
          obtain ⟨afterInitial, rfl, -⟩ | ⟨-, -, afterLabel, -, rfl, -⟩ := kept.of_cons
          · have different := ne_of_mem_of_not_mem member fresh
            exact .labels _ _ different other plain
          · exact .common marker
              (.left (.here _ (by simp) plain) (by simpa using plain))
  · exact absurd same.symm symbol

/-- The step where the texts have different labels. -/
theorem labels_apart_rewrites {a b : α} {text other written read : List α}
    (plain : initial ≠ marker) (different : a ≠ b)
    (leftPlain : a ≠ marker) (rightPlain : b ≠ marker)
    (left : Rewrites (first :: others) (marker :: initial :: tail) (a :: text) written)
    (right : Rewrites (first :: others) (marker :: initial :: tail) (b :: other) read) :
    Apart marker (initial :: initials) (marker :: written) (marker :: read) := by
  have tag (rest : List α) : Tagged marker (initial :: initials) (initial :: rest) :=
    .here rest (by simp) plain
  obtain ⟨written, rfl, -⟩ | ⟨leftSame, -, written, -, rfl, -⟩ := left.of_cons
  · obtain ⟨read, rfl, -⟩ | ⟨-, -, read, -, rfl, -⟩ := right.of_cons
    · exact .labels _ _ different leftPlain rightPlain
    · exact .common marker (.right (tag _) (by simpa using leftPlain))
  · obtain ⟨read, rfl, -⟩ | ⟨rightSame, -⟩ := right.of_cons
    · exact .common marker (.left (tag _) (by simpa using rightPlain))
    · exact absurd (leftSame.trans rightSame.symm) different

/-- Texts that are apart stay so when copies of a pattern without the marker are
    replaced by a label that no earlier label looks like.

    Proof: by the length of the first text. Where the texts agree, the rewritings
    either do the same or one of them writes the marker; at the first difference
    the marker stays. -/
theorem Apart.rewrites (absent : marker ∉ first :: others) (plain : initial ≠ marker)
    (fresh : initial ∉ initials) (length : Nat) {text other written read : List α}
    (bounded : text.length ≤ length) (apart : Apart marker initials text other)
    (left : Rewrites (first :: others) (marker :: initial :: tail) text written)
    (right : Rewrites (first :: others) (marker :: initial :: tail) other read) :
    Apart marker (initial :: initials) written read := by
  have symbol : first ≠ marker := fun same => absent (by simp [same])
  have tag (rest : List α) : Tagged marker (initial :: initials) (initial :: rest) :=
    .here rest (by simp) plain
  induction length generalizing text other written read with
  | zero =>
    rw [Nat.le_zero, List.length_eq_zero_iff] at bounded
    subst bounded
    cases apart with
    | right tagged unmarked =>
      exact (tagged.apart_rewrites absent plain fresh unmarked right left).symm
  | succ length inductionHypothesis =>
    cases apart with
    | left tagged unmarked => exact tagged.apart_rewrites absent plain fresh unmarked left right
    | right tagged unmarked =>
      exact (tagged.apart_rewrites absent plain fresh unmarked right left).symm
    | labels text other different leftPlain rightPlain =>
      obtain ⟨written, rfl, keptLeft⟩ | ⟨same, -⟩ := left.of_cons
      · obtain ⟨read, rfl, keptRight⟩ | ⟨same, -⟩ := right.of_cons
        · exact labels_apart_rewrites plain different leftPlain rightPlain keptLeft keptRight
        · exact absurd same.symm symbol
      · exact absurd same.symm symbol
    | common a apart =>
      rw [List.length_cons] at bounded
      obtain ⟨written, rfl, keptLeft⟩ | ⟨leftSame, after, written, rfl, rfl, copiedLeft⟩ :=
        left.of_cons
      · obtain ⟨read, rfl, keptRight⟩ | ⟨rightSame, -, read, -, rfl, -⟩ := right.of_cons
        · exact .common a (inductionHypothesis (by omega) apart keptLeft keptRight)
        · exact .right (tag _) (by simpa [rightSame] using symbol)
      · obtain ⟨read, rfl, -⟩ | ⟨-, afterRight, read, rfl, rfl, copiedRight⟩ := right.of_cons
        · exact .left (tag _) (by simpa [leftSame] using symbol)
        · rw [List.length_append] at bounded
          have rest := apart.of_append (fun member => absent (by simp [member]))
          exact (inductionHypothesis (by omega) rest copiedLeft copiedRight).append _

end Step

/-! ## The condition is exact -/

/-- Each label starts with the marker and is told from those before it by its
    second symbol. -/
def Distinguished (marker : α) : List α → List (κ × List α) → Prop
  | _, [] => True
  | initials, (_, label) :: names =>
    ∃ initial tail, label = marker :: initial :: tail ∧ initial ≠ marker ∧ initial ∉ initials ∧
      Distinguished marker (initial :: initials) names

/-- The values of the names are nonempty and do not contain the marker. -/
def Unmarked (marker : α) (value : κ → List α) (names : List (κ × List α)) : Prop :=
  ∀ named ∈ names, value named.1 ≠ [] ∧ marker ∉ value named.1

/-- Fewer labels before make no difference. -/
theorem Distinguished.mono {marker : α} {fewer initials : List α} {names : List (κ × List α)}
    (subset : fewer ⊆ initials) (distinguished : Distinguished marker initials names) :
    Distinguished marker fewer names := by
  induction names generalizing fewer initials with
  | nil => trivial
  | cons named names inductionHypothesis =>
    obtain ⟨initial, tail, shape, plain, fresh, rest⟩ := distinguished
    have wider : initial :: fewer ⊆ initial :: initials := List.cons_subset_cons initial subset
    exact ⟨initial, tail, shape, plain, fun member => fresh (subset member),
      inductionHypothesis wider rest⟩

variable [DecidableEq κ]

/-- The values of the names after the first are those before it was labelled. -/
theorem Unmarked.of_cons {marker : α} {value : κ → List α} {name : κ} {label : List α}
    {names : List (κ × List α)} (unmarked : Unmarked marker value ((name, label) :: names))
    (fresh : name ∉ names.map Prod.fst) :
    Unmarked marker (Function.update value name label) names := by
  intro named member
  rw [← update_same_names fresh label named member]
  exact unmarked named (List.mem_cons_of_mem _ member)

variable [DecidableEq α]

/-- Once a text is apart from the template, it stays so to the end. -/
theorem replaceEach_apart {marker : α} {initials : List α} {value : κ → List α}
    {names : List (κ × List α)} (nodup : (names.map Prod.fst).Nodup)
    (distinguished : Distinguished marker initials names) (unmarked : Unmarked marker value names)
    {text : List α} {segments : List (Segment α κ)}
    (apart : Apart marker initials text (render value segments)) :
    replaceEach value names text ≠ render (labelled value names) segments := by
  induction names generalizing value text initials with
  | nil => exact apart.ne
  | cons named names inductionHypothesis =>
    obtain ⟨name, label⟩ := named
    obtain ⟨initial, tail, rfl, plain, fresh, rest⟩ := distinguished
    obtain ⟨nonempty, absent⟩ := unmarked (name, _) List.mem_cons_self
    rw [List.map_cons, List.nodup_cons] at nodup
    have left := replaceAll_rewrites nonempty (marker :: initial :: tail) text
    have right := render_rewrites value name (marker :: initial :: tail) segments
    obtain ⟨first, others, shape⟩ := List.exists_cons_of_ne_nil nonempty
    rw [shape] at left right absent
    have step := inductionHypothesis nodup.2 rest (unmarked.of_cons nodup.1)
      (apart.rewrites absent plain fresh _ (Nat.le_refl _) left right)
    rw [← replaceEach_congr (update_same_names nodup.1 _), ← shape] at step
    exact step

/-- A name whose copies are replaced exactly at its holes is isolated. -/
theorem absent_of_replaceAll {pattern label text rest written : List α} {marker : α}
    (nonempty : pattern ≠ []) (absent : marker ∉ pattern)
    (same : replaceAll pattern (marker :: label) (text ++ rest) = text ++ written) :
    Absent pattern text rest ∧ replaceAll pattern (marker :: label) rest = written := by
  induction text with
  | nil => exact ⟨trivial, same⟩
  | cons a text inductionHypothesis =>
    have missed : ¬ pattern <+: a :: (text ++ rest) := by
      rintro ⟨after, copied⟩
      rw [List.cons_append, ← copied, replaceAll_copy nonempty] at same
      have marked : marker = a := by simpa using congrArg List.head? same
      obtain ⟨first, others, rfl⟩ := List.exists_cons_of_ne_nil nonempty
      have begins : first = a := by simpa using congrArg List.head? copied
      exact absent (by simp [marked, begins])
    rw [List.cons_append, replaceAll_keep nonempty _ missed, List.cons_append,
      List.cons.injEq] at same
    obtain ⟨others, remaining⟩ := inductionHypothesis same.2
    exact ⟨⟨missed, others⟩, remaining⟩

theorem isolated_of_replaceAll {value : κ → List α} {name : κ} {marker : α} {label : List α}
    (nonempty : value name ≠ []) (absent : marker ∉ value name)
    {segments : List (Segment α κ)}
    (same : replaceAll (value name) (marker :: label) (render value segments) =
      render (Function.update value name (marker :: label)) segments) :
    Isolated value name segments := by
  induction segments with
  | nil => trivial
  | cons segment segments inductionHypothesis =>
    rw [render_cons, render_cons] at same
    by_cases here : segment = .hole name
    · subst here
      simp only [Segment.render, Function.update_self] at same
      rw [replaceAll_copy nonempty] at same
      exact ⟨fun other => absurd rfl other,
        inductionHypothesis (List.append_cancel_left same)⟩
    · rw [render_update_other here] at same
      obtain ⟨missed, remaining⟩ := absent_of_replaceAll nonempty absent same
      exact ⟨fun _ => missed, inductionHypothesis remaining⟩

/-- With labels told apart by what follows the marker, a text comes out as the
    labelled template only if its values are separated.

    Proof: at the first name replaced wrongly the text and the template come
    apart, and the replacements that follow keep them apart. -/
theorem separated_of_replaceEach {marker : α} {initials : List α} {value : κ → List α}
    {names : List (κ × List α)} (nodup : (names.map Prod.fst).Nodup)
    (distinguished : Distinguished marker initials names) (unmarked : Unmarked marker value names)
    {segments : List (Segment α κ)}
    (same : replaceEach value names (render value segments) =
      render (labelled value names) segments) :
    Separated value names segments := by
  induction names generalizing value initials with
  | nil => trivial
  | cons named names inductionHypothesis =>
    obtain ⟨name, label⟩ := named
    obtain ⟨initial, tail, rfl, plain, -, rest⟩ := distinguished
    obtain ⟨nonempty, absent⟩ := unmarked (name, _) List.mem_cons_self
    rw [List.map_cons, List.nodup_cons] at nodup
    have left := replaceAll_rewrites nonempty (marker :: initial :: tail) (render value segments)
    have right := render_rewrites value name (marker :: initial :: tail) segments
    simp only [replaceEach, labelled, List.foldl_cons] at same
    change replaceEach value names _ = render (labelled _ names) segments at same
    rw [replaceEach_congr (update_same_names nodup.1 (marker :: initial :: tail))] at same
    obtain ⟨first, others, shape⟩ := List.exists_cons_of_ne_nil nonempty
    have there : replaceAll (value name) (marker :: initial :: tail) (render value segments) =
        render (Function.update value name (marker :: initial :: tail)) segments := by
      rw [shape] at left right absent ⊢
      obtain same | apart := left.eq_or_apart absent plain right
      · exact same
      · exact absurd same (replaceEach_apart nodup.2 (rest.mono (by simp))
          (unmarked.of_cons nodup.1) (shape ▸ apart))
    rw [there] at same
    exact ⟨nonempty, isolated_of_replaceAll nonempty absent there,
      inductionHypothesis nodup.2 rest (unmarked.of_cons nodup.1) same⟩

end Semasm.Library.Replacement
