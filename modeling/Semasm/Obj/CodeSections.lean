import Semasm.Obj.Sections

/-!
# Which sections become code

The loop of `codeSections` keeps the sections of kind `text` that have data, each
in an entry of its own, and fails on a section of that kind whose data cannot be
read. Sorting moves the entries and neither adds nor drops one.
-/

namespace Semasm.Obj

/-- The policy reports the section as executable and it has these bytes. -/
def CarriesCode (item : ObjectSection) (bytes : List UInt8) : Prop :=
  (sectionPermissions item).2 = true ∧ item.data = .ok bytes ∧ bytes ≠ []

/-- The entry for a section's bytes. -/
def ObjectSection.entry (item : ObjectSection) (bytes : List UInt8) : CodeSection :=
  ⟨item.name.getD "", item.address, bytes⟩

/-- Whenever the code sections can be read, each executable section with data is
there exactly once: without the section, exactly its entry is missing. -/
def ReturnedOnce (sections : List ObjectSection) : Prop :=
  ∀ code, codeSections sections = .ok code →
    ∀ before item after bytes, sections = before ++ item :: after → CarriesCode item bytes →
      ∃ others, codeSections (before ++ after) = .ok others ∧
        List.Perm code (item.entry bytes :: others)

/-- The two criteria for executable code agree on every section with data, or the
code sections cannot be read at all. -/
def CriteriaAgree (sections : List ObjectSection) : Prop :=
  (∃ item ∈ sections, item.kind = .text ∧ ∃ reason, item.data = .error reason) ∨
    ∀ item ∈ sections, ∀ bytes, CarriesCode item bytes → item.kind = .text

/-- The loop over two lists of sections in a row. -/
theorem collectCode_append_ok (first second : List ObjectSection) (found : List CodeSection) :
    collectCode (first ++ second) = .ok found ↔
      ∃ early late, collectCode first = .ok early ∧ collectCode second = .ok late ∧
        found = early ++ late := by
  induction first generalizing found with
  | nil => simp [collectCode]
  | cons item rest inductionHypothesis =>
    simp only [List.cons_append, collectCode]
    cases codeSectionOf item with
    | error reason => simp
    | ok own =>
      cases later : collectCode (rest ++ second) with
      | error reason =>
        have none : ¬ ∃ early late, collectCode rest = .ok early ∧
            collectCode second = .ok late := by
          rintro ⟨early, late, left, right⟩
          have joined := (inductionHypothesis (early ++ late)).mpr ⟨early, late, left, right, rfl⟩
          rw [later] at joined
          cases joined
        constructor
        · intro absurd
          cases absurd
        · rintro ⟨early, late, left, right, _⟩
          cases collected : collectCode rest with
          | error reason => simp [collected] at left
          | ok early => exact absurd ⟨early, late, collected, right⟩ none
      | ok tail =>
        obtain ⟨early, late, left, right, joined⟩ := (inductionHypothesis tail).mp later
        simp [left, right, joined, eq_comm]

/-- The loop fails exactly on a text section whose data cannot be read. -/
theorem collectCode_ok_iff (sections : List ObjectSection) :
    (∃ found, collectCode sections = .ok found) ↔
      ¬ ∃ item ∈ sections, item.kind = .text ∧ ∃ reason, item.data = .error reason := by
  induction sections with
  | nil => simp [collectCode]
  | cons item rest inductionHypothesis =>
    have own : (∃ found, codeSectionOf item = .ok found) ↔
        ¬ (item.kind = .text ∧ ∃ reason, item.data = .error reason) := by
      unfold codeSectionOf
      by_cases kind : item.kind = .text
      · cases item.data with
        | error reason => simp [kind]
        | ok bytes => by_cases empty : bytes.isEmpty <;> simp [kind, empty]
      · simp [kind]
    simp only [List.exists_mem_cons_iff, not_or, ← own, ← inductionHypothesis]
    cases found : codeSectionOf item with
    | error reason => simp [collectCode, found]
    | ok early => cases later : collectCode rest <;> simp [collectCode, found, later]

/-- What a section that carries code contributes. -/
theorem codeSectionOf_carries (item : ObjectSection) (bytes : List UInt8)
    (carries : CarriesCode item bytes) :
    codeSectionOf item = .ok (if item.kind = .text then [item.entry bytes] else []) := by
  obtain ⟨_, data, nonempty⟩ := carries
  by_cases kind : item.kind = .text
  · simp [codeSectionOf, kind, data, nonempty, ObjectSection.entry]
  · simp [codeSectionOf, kind]

/-- Reading code sections is collecting them, up to order. -/
theorem codeSections_ok_iff (sections : List ObjectSection) (code : List CodeSection) :
    codeSections sections = .ok code ↔
      ∃ found, collectCode sections = .ok found ∧
        code = found.insertionSort CodeSection.before := by
  unfold codeSections
  cases collectCode sections with
  | error reason => simp
  | ok found => simp [eq_comm]

/-- A file whose code sections were read, split at one section that carries code:
the entry is there when the section is a text section, and the rest is what the
other sections give. -/
theorem codeSections_split (before after : List ObjectSection) (item : ObjectSection)
    (bytes : List UInt8) (code : List CodeSection) (carries : CarriesCode item bytes)
    (read : codeSections (before ++ item :: after) = .ok code) :
    ∃ others, codeSections (before ++ after) = .ok others ∧
      List.Perm code ((if item.kind = .text then [item.entry bytes] else []) ++ others) := by
  obtain ⟨found, collected, sorted⟩ := (codeSections_ok_iff _ _).mp read
  obtain ⟨early, late, left, right, joined⟩ := (collectCode_append_ok _ _ _).mp collected
  have own := codeSectionOf_carries item bytes carries
  rw [collectCode, own] at right
  cases later : collectCode after with
  | error reason => simp [later] at right
  | ok tail =>
    simp only [later, Except.ok.injEq] at right
    have rest : collectCode (before ++ after) = .ok (early ++ tail) :=
      (collectCode_append_ok _ _ _).mpr ⟨early, tail, left, later, rfl⟩
    refine ⟨(early ++ tail).insertionSort CodeSection.before,
      (codeSections_ok_iff _ _).mpr ⟨_, rest, rfl⟩, ?_⟩
    have moved : List.Perm found
        ((if item.kind = .text then [item.entry bytes] else []) ++ (early ++ tail)) := by
      rw [joined, ← right]
      exact List.perm_append_comm_assoc _ _ _
    rw [sorted]
    exact (List.perm_insertionSort _ _).trans
      (moved.trans ((List.perm_insertionSort _ _).symm.append_left _))

/-- Each executable section with data is returned exactly once precisely when the
two criteria agree.

Proof: an entry that is missing or there is read off the split at the section;
were a section that carries code not a text section, the list would have to be a
permutation of one that is longer by an entry. -/
theorem returnedOnce_iff (sections : List ObjectSection) :
    ReturnedOnce sections ↔ CriteriaAgree sections := by
  constructor
  · intro once
    apply or_iff_not_imp_left.mpr
    intro readable item member bytes carries
    obtain ⟨found, collected⟩ := (collectCode_ok_iff sections).mpr readable
    have read : codeSections sections = .ok (found.insertionSort CodeSection.before) :=
      (codeSections_ok_iff _ _).mpr ⟨found, collected, rfl⟩
    obtain ⟨before, after, split⟩ := List.append_of_mem member
    obtain ⟨others, without, permuted⟩ := once _ read before item after bytes split carries
    rw [split] at read
    obtain ⟨rest, same, actual⟩ := codeSections_split before after item bytes _ carries read
    rw [without, Except.ok.injEq] at same
    by_contra notText
    have longer := permuted.symm.trans actual
    rw [if_neg notText, ← same] at longer
    simpa using longer.length_eq
  · rintro agree code read before item after bytes split carries
    have text : item.kind = .text := by
      rcases agree with unreadable | kinds
      · obtain ⟨found, collected, _⟩ := (codeSections_ok_iff _ _).mp read
        exact absurd unreadable ((collectCode_ok_iff sections).mp ⟨found, collected⟩)
      · exact kinds item (by simp [split]) bytes carries
    rw [split] at read
    have result := codeSections_split before after item bytes code carries read
    rwa [if_pos text] at result

end Semasm.Obj
