import Mathlib.Data.List.TakeWhile

/-!
# Scanning a list of symbols

A hand-written scanner keeps a cursor: how many symbols it has read and which
ones remain. It passes blanks, eats a given token if it comes next, eats a whole
word only if no symbol of a word follows it, and takes the longest run of
symbols of a kind. The rules say what each operation leaves when the remaining
symbols are written as a gap, a token and a rest, and what the remaining symbols
were when an operation succeeded.
-/

namespace Semasm.Library.Scanning

/-- What a scanner has read so far, counted, and what remains. -/
structure Cursor (α : Type) where
  pos : Nat
  rest : List α
deriving DecidableEq, Repr

namespace Cursor

variable {α : Type}

/-- Pass a number of symbols. -/
def advance (count : Nat) (cursor : Cursor α) : Cursor α :=
  ⟨cursor.pos + count, cursor.rest.drop count⟩

/-- Take the longest run of symbols of a kind. -/
def span (kind : α → Bool) (cursor : Cursor α) : List α × Cursor α :=
  (cursor.rest.takeWhile kind,
    ⟨cursor.pos + (cursor.rest.takeWhile kind).length, cursor.rest.dropWhile kind⟩)

/-- Pass the blanks. -/
def skip (blank : α → Bool) (cursor : Cursor α) : Cursor α := (cursor.span blank).2

/-- Pass the blanks, then a token if it comes next. -/
def eat [DecidableEq α] (blank : α → Bool) (token : List α) (cursor : Cursor α) :
    Bool × Cursor α :=
  let there := cursor.skip blank
  if token.isPrefixOf there.rest then (true, there.advance token.length) else (false, there)

/-- Pass the blanks, then a word if it comes next and ends there. -/
def eatWord [DecidableEq α] (blank inWord : α → Bool) (word : List α) (cursor : Cursor α) :
    Bool × Cursor α :=
  let there := cursor.skip blank
  if word.isPrefixOf there.rest ∧ (there.rest.drop word.length).head?.all (fun a => !inWord a) then
    (true, there.advance word.length)
  else (false, there)

end Cursor

variable {α : Type}

/-- No symbol of a kind comes first. -/
def Stops (kind : α → Bool) (text : List α) : Prop := ∀ a ∈ text.head?, kind a = false

@[simp] theorem stops_nil (kind : α → Bool) : Stops kind [] := by simp [Stops]

@[simp] theorem stops_cons (kind : α → Bool) (a : α) (text : List α) :
    Stops kind (a :: text) ↔ kind a = false := by simp [Stops]

/-- The first symbol of a nonempty text decides for every continuation. -/
theorem Stops.append {kind : α → Bool} {text : List α} (stops : Stops kind text)
    (rest : List α) (nonempty : text ≠ []) : Stops kind (text ++ rest) := by
  cases text with
  | nil => exact absurd rfl nonempty
  | cons a text => simpa using stops

/-- And for every text that begins like it. -/
theorem Stops.front {kind : α → Bool} {text rest : List α} (stops : Stops kind (text ++ rest)) :
    Stops kind text := by
  cases text with
  | nil => exact stops_nil kind
  | cons a text => simpa using stops

/-- A run of a kind before a text where the kind stops is the longest run. -/
theorem takeWhile_run {kind : α → Bool} {run text : List α} (all : ∀ a ∈ run, kind a = true)
    (stops : Stops kind text) : (run ++ text).takeWhile kind = run := by
  rw [List.takeWhile_append_of_pos all]
  cases text with
  | nil => simp
  | cons a text =>
    rw [stops_cons] at stops
    simp [stops]

/-- And what follows that run is the rest. -/
theorem dropWhile_run {kind : α → Bool} {run text : List α} (all : ∀ a ∈ run, kind a = true)
    (stops : Stops kind text) : (run ++ text).dropWhile kind = text := by
  rw [List.dropWhile_append_of_pos all]
  cases text with
  | nil => simp
  | cons a text =>
    rw [stops_cons] at stops
    simp [stops]

/-- The longest run is followed by a symbol of another kind. -/
theorem stops_dropWhile (kind : α → Bool) (text : List α) : Stops kind (text.dropWhile kind) := by
  intro a first
  have other := List.head?_dropWhile_not kind text
  rw [Option.mem_def] at first
  simpa [first] using other

/-- The text a scanner passed between two places. -/
def Passes (cursor : Cursor α) (text : List α) (after : Cursor α) : Prop :=
  cursor.rest = text ++ after.rest ∧ after.pos = cursor.pos + text.length

theorem Passes.nothing (cursor : Cursor α) : Passes cursor [] cursor := ⟨rfl, rfl⟩

/-- What is passed in two steps is passed at once. -/
theorem Passes.append {cursor middle after : Cursor α} {text more : List α}
    (first : Passes cursor text middle) (second : Passes middle more after) :
    Passes cursor (text ++ more) after := by
  refine ⟨?_, ?_⟩
  · rw [first.1, second.1, List.append_assoc]
  · rw [second.2, first.2, List.length_append, Nat.add_assoc]

/-- Where no symbol of a kind comes first, no run of the kind was passed. -/
theorem Passes.no_run {kind : α → Bool} {cursor after : Cursor α} {run text : List α}
    (passes : Passes cursor (run ++ text) after) (all : ∀ a ∈ run, kind a = true)
    (stops : Stops kind cursor.rest) : run = [] := by
  cases run with
  | nil => rfl
  | cons a run =>
    rw [passes.1, List.append_assoc, List.cons_append, stops_cons,
      all a (List.mem_cons_self ..)] at stops
    cases stops

section Cursors

variable (kind blank inWord : α → Bool)

@[simp] theorem advance_zero (cursor : Cursor α) : cursor.advance 0 = cursor := rfl

@[simp] theorem advance_append (pos : Nat) (text rest : List α) :
    Cursor.advance text.length ⟨pos, text ++ rest⟩ = ⟨pos + text.length, rest⟩ := by
  simp [Cursor.advance]

theorem span_run (pos : Nat) {run rest : List α} (all : ∀ a ∈ run, kind a = true)
    (stops : Stops kind rest) :
    Cursor.span kind ⟨pos, run ++ rest⟩ = (run, ⟨pos + run.length, rest⟩) := by
  simp only [Cursor.span, takeWhile_run all stops, dropWhile_run all stops]

theorem span_sound (cursor : Cursor α) :
    cursor.rest = (cursor.span kind).1 ++ (cursor.span kind).2.rest ∧
      (∀ a ∈ (cursor.span kind).1, kind a = true) ∧ Stops kind (cursor.span kind).2.rest :=
  ⟨List.takeWhile_append_dropWhile.symm, fun _ member => List.mem_takeWhile_imp member,
    stops_dropWhile kind cursor.rest⟩

theorem skip_gap (pos : Nat) {gap rest : List α} (all : ∀ a ∈ gap, blank a = true)
    (stops : Stops blank rest) :
    Cursor.skip blank ⟨pos, gap ++ rest⟩ = ⟨pos + gap.length, rest⟩ := by
  rw [Cursor.skip, span_run blank pos all stops]

theorem skip_sound (cursor : Cursor α) :
    ∃ gap, cursor.rest = gap ++ (cursor.skip blank).rest ∧ (∀ a ∈ gap, blank a = true) ∧
      Stops blank (cursor.skip blank).rest :=
  ⟨(cursor.span blank).1, span_sound blank cursor⟩

/-- Where no blank comes next there is nothing to pass. -/
theorem skip_stopped {cursor : Cursor α} (stops : Stops blank cursor.rest) :
    cursor.skip blank = cursor := by
  have passed := skip_gap blank cursor.pos (List.forall_mem_nil _) stops
  simpa using passed

/-- Passing the blanks twice is passing them once. -/
@[simp] theorem skip_skip (cursor : Cursor α) :
    (cursor.skip blank).skip blank = cursor.skip blank := by
  obtain ⟨_, _, _, stops⟩ := skip_sound blank cursor
  exact skip_stopped blank stops

/-- Passing blanks leaves no more than there was. -/
theorem skip_length (cursor : Cursor α) :
    (cursor.skip blank).rest.length ≤ cursor.rest.length := by
  obtain ⟨gap, split, _⟩ := skip_sound blank cursor
  have total := congrArg List.length split
  rw [List.length_append] at total
  omega

theorem span_passes (cursor : Cursor α) :
    Passes cursor (cursor.span kind).1 (cursor.span kind).2 :=
  ⟨List.takeWhile_append_dropWhile.symm, rfl⟩

theorem skip_passes (cursor : Cursor α) :
    ∃ gap, Passes cursor gap (cursor.skip blank) ∧ (∀ a ∈ gap, blank a = true) ∧
      Stops blank (cursor.skip blank).rest :=
  ⟨(cursor.span blank).1, span_passes blank cursor, (span_sound blank cursor).2⟩

theorem advance_passes {cursor : Cursor α} {text rest : List α}
    (shape : cursor.rest = text ++ rest) : Passes cursor text (cursor.advance text.length) := by
  simp [Passes, Cursor.advance, shape]

variable [DecidableEq α] {token : List α}

theorem eat_hit (pos : Nat) {gap : List α} (rest : List α) (all : ∀ a ∈ gap, blank a = true)
    (stops : Stops blank token) (nonempty : token ≠ []) :
    Cursor.eat blank token ⟨pos, gap ++ (token ++ rest)⟩ =
      (true, ⟨pos + gap.length + token.length, rest⟩) := by
  simp [Cursor.eat, skip_gap blank pos all (stops.append rest nonempty)]

theorem eat_miss (cursor : Cursor α) (other : ¬ token <+: (cursor.skip blank).rest) :
    cursor.eat blank token = (false, cursor.skip blank) := by
  simp [Cursor.eat, other]

@[simp] theorem eat_skip (cursor : Cursor α) :
    (cursor.skip blank).eat blank token = cursor.eat blank token := by
  simp [Cursor.eat]

/-- A token that was not there leaves the cursor at the next symbol. -/
theorem eat_false {cursor after : Cursor α} (missed : cursor.eat blank token = (false, after)) :
    after = cursor.skip blank := by
  simp only [Cursor.eat] at missed
  split at missed <;> simp_all

theorem eat_true {cursor after : Cursor α} (found : cursor.eat blank token = (true, after)) :
    ∃ gap, cursor.rest = gap ++ (token ++ after.rest) ∧ (∀ a ∈ gap, blank a = true) ∧
      after = (cursor.skip blank).advance token.length := by
  obtain ⟨gap, split, all, _⟩ := skip_sound blank cursor
  simp only [Cursor.eat] at found
  split at found
  next starts =>
    simp only [Prod.mk.injEq, true_and] at found
    obtain ⟨rest, spelled⟩ := List.isPrefixOf_iff_prefix.1 starts
    refine ⟨gap, ?_, all, found.symm⟩
    rw [split, ← spelled, ← found]
    simp [Cursor.advance, ← spelled]
  next => simp at found

theorem eat_passes {cursor after : Cursor α} (found : cursor.eat blank token = (true, after)) :
    ∃ gap, Passes cursor (gap ++ token) after ∧ ∀ a ∈ gap, blank a = true := by
  obtain ⟨gap, passed, all, _⟩ := skip_passes blank cursor
  simp only [Cursor.eat] at found
  split at found
  next starts =>
    simp only [Prod.mk.injEq, true_and] at found
    obtain ⟨rest, spelled⟩ := List.isPrefixOf_iff_prefix.1 starts
    exact ⟨gap, found ▸ passed.append (advance_passes spelled.symm), all⟩
  next => simp at found

theorem eatWord_passes {cursor after : Cursor α}
    (found : cursor.eatWord blank inWord token = (true, after)) :
    ∃ gap, Passes cursor (gap ++ token) after ∧ (∀ a ∈ gap, blank a = true) ∧
      Stops inWord after.rest := by
  obtain ⟨gap, passed, all, _⟩ := skip_passes blank cursor
  simp only [Cursor.eatWord] at found
  split at found
  next starts =>
    simp only [Prod.mk.injEq, true_and] at found
    obtain ⟨rest, spelled⟩ := List.isPrefixOf_iff_prefix.1 starts.1
    refine ⟨gap, found ▸ passed.append (advance_passes spelled.symm), all, ?_⟩
    intro a first
    rw [← found] at first
    have ends := starts.2
    rw [Option.mem_def] at first
    simp only [Cursor.advance] at first
    rw [first] at ends
    simpa using ends
  next => simp at found

/-- A word that was not there leaves the cursor at the next symbol. -/
theorem eatWord_false {cursor after : Cursor α}
    (missed : cursor.eatWord blank inWord token = (false, after)) :
    after = cursor.skip blank := by
  simp only [Cursor.eatWord] at missed
  split at missed <;> simp_all

theorem eatWord_hit (pos : Nat) {gap : List α} {rest : List α}
    (all : ∀ a ∈ gap, blank a = true) (stops : Stops blank token) (nonempty : token ≠ [])
    (ends : Stops inWord rest) :
    Cursor.eatWord blank inWord token ⟨pos, gap ++ (token ++ rest)⟩ =
      (true, ⟨pos + gap.length + token.length, rest⟩) := by
  have ended : rest.head?.all (fun a => !inWord a) = true := by
    cases rest with
    | nil => rfl
    | cons a rest => simpa using ends
  simp [Cursor.eatWord, skip_gap blank pos all (stops.append rest nonempty), ended]

@[simp] theorem eatWord_skip (cursor : Cursor α) :
    (cursor.skip blank).eatWord blank inWord token = cursor.eatWord blank inWord token := by
  simp [Cursor.eatWord]

end Cursors

end Semasm.Library.Scanning
