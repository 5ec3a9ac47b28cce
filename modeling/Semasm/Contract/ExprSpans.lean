import Semasm.Contract.ExprExtents

/-!
# Spans nest where every left part is flush

The spans of a tree cover the spans below them, and the text at each is a rendering
of its node, exactly where no left part begins with a member access or with a
parenthesis. A flush left part begins where its text does; any other one leaves out
a base or an opening parenthesis.
-/

namespace Semasm.Contract

open Library.Scanning ExprParser

/-! ## What a span promises -/

/-- A call, an index, a range, a unary or a binary expression. -/
def Expr.compound : Expr → Bool
  | .call _ _ _ | .index _ _ _ | .range _ _ _ | .unary _ _ _ | .binary _ _ _ _ => true
  | .int _ _ | .bool _ _ | .ident _ _ | .member _ _ _ => false

/-- The text, read on its own where the node stands as what an index may hold, is
read to its end and gives the node, up to spans. -/
def Renders (text : List Char) (node : Expr) : Prop :=
  ∃ got after, parseRangeOrExpr (parseImplies (text.length + 1)) ⟨node.span.start.toNat, text⟩ =
    .ok (got, after) ∧ after.rest = [] ∧ got.erase = node.erase

/-- What a span promises about its node. -/
structure SpanHolds (input : List Char) (node : Expr) : Prop where
  covers : ∀ below, Inside below node →
    node.span.start ≤ below.span.start ∧ below.span.stop ≤ node.span.stop
  within : node.span.start ≤ node.span.stop ∧ node.span.stop.toNat ≤ input.length
  renders : Renders (textAt input node.span) node

/-- The span of every compound node covers the spans inside it, lies within the
input and holds a rendering of the node. -/
def SpansNested (input : String) (tree : Expr) : Prop :=
  ∀ node, Inside node tree → node.compound = true → SpanHolds input.toList node

/-- The input reads as an expression with no left part that begins with a member
access or a parenthesis. -/
def FlushText (input : String) : Prop := ∃ e, ReadsWhole True input e

/-! ## Readings on their own -/

theorem ReadsAs.loosest {strict : Prop} {level place : Nat} {text : List Char} {e : Expr}
    (small : level ≤ 6) (reads : ReadsAs strict level place text e) :
    ReadsAs strict 0 place text e := by
  induction level with
  | zero => exact reads
  | succ level inductionHypothesis =>
    exact inductionHypothesis (by omega) (.raise (by omega) reads)

/-- What reads at a level may stand in an index. -/
theorem ReadsAs.inside {strict : Prop} {level place : Nat} {text : List Char} {e : Expr}
    (small : level ≤ 9) (reads : ReadsAs strict level place text e) :
    ReadsAs strict 9 place text e := by
  have closing : ReadsAs strict 7 place text e → ReadsAs strict 9 place text e := by
    intro reads
    have closed : ReadsAs strict 6 place (text ++ []) e := .close gap_nil reads
    rw [List.append_nil] at closed
    exact .plain (closed.loosest (by decide))
  rcases Nat.lt_or_ge level 7 with low | high
  · exact .plain (reads.loosest (by omega))
  · interval_cases level
    · exact closing reads
    · exact closing (.primary reads)
    · exact reads

/-- A text that reads as a node is a rendering of it. -/
theorem ReadsAs.renders {strict : Prop} {place : Nat} {text : List Char} {e : Expr}
    (reads : ReadsAs strict 9 place text e) (start : e.span.start.toNat = place) :
    Renders text e := by
  have exact : ExactInside (parseImplies (text.length + 1)) place text e :=
    reads.exact (text.length + 1) (by omega)
  have read := exact [] (.of_stops (stops_nil _)) (stops_nil _) rfl (by simp)
  rw [List.append_nil] at read
  exact ⟨e, _, by rw [start]; exact read, rfl, rfl⟩

/-- A rendering closes the parentheses it opens. -/
theorem Renders.balanced {text : List Char} {node : Expr} (renders : Renders text node) :
    Balanced text := by
  obtain ⟨got, after, read, ended, _⟩ := renders
  obtain ⟨gap, inner, blank, passed, reads, _⟩ :=
    parseRangeOrExpr_sound (parseImplies_sound _) read
  have shape : text = gap ++ inner := by
    have whole := passed.1
    rw [ended, List.append_nil] at whole
    exact whole
  have own : Balanced inner := reads.balanced
  subst shape
  simp_all [Balanced, blank.parens]

theorem ReadsAs.loosen {strict : Prop} {level place : Nat} {text : List Char} {e : Expr}
    (reads : ReadsAs strict level place text e) : ReadsAs False level place text e := by
  induction reads with
  | ident isName free => exact .ident isName free
  | int numeral same => exact .int numeral same
  | bool place value => exact .bool place value
  | paren blank _ inner => exact .paren blank inner
  | primary _ inner => exact .primary inner
  | member blanks isName _ base => exact .member blanks isName base
  | call blanks gaps closes aligned _ _ _ callee each =>
    exact .call blanks gaps closes aligned callee each False.elim
  | index blanks _ _ _ base position => exact .index blanks base position False.elim
  | close blank _ inner => exact .close blank inner
  | unary spelled blank apart _ operand => exact .unary spelled blank apart operand
  | raise binary _ inner => exact .raise binary inner
  | binary listed blank apartLeft apartRight _ _ _ left right =>
    exact .binary listed blank apartLeft apartRight left right False.elim
  | plain _ inner => exact .plain inner
  | range blank _ _ start stop => exact .range blank start stop

/-! ## Flush left parts are what nesting takes -/

/-- Every compound node inside keeps what its span promises. -/
def Nested (input : List Char) (e : Expr) : Prop :=
  ∀ node, Inside node e → node.compound = true → SpanHolds input node

theorem Nested.node {input : List Char} {e : Expr} (own : e.compound = true → SpanHolds input e)
    (parts : ∀ part ∈ e.parts, Nested input part) : Nested input e := by
  intro node inside compound
  cases inside with
  | root => exact own compound
  | part listed inside => exact parts _ listed node inside compound

/-- A span over exactly the text of its node keeps its promise. -/
theorem holds_of_extent {strict : Prop} {input : List Char} {level place : Nat} {text : List Char}
    {e : Expr} (short : input.length < 2 ^ 32) (small : level ≤ 9)
    (stands : StandsAt input place text) (reads : ReadsAs strict level place text e)
    (span : e.span = spanAt place text) : SpanHolds input e := by
  have inside := stands.inside
  have start : e.span.start.toNat = place := by
    rw [span]
    exact toU32_of_lt (by omega)
  have stop : e.span.stop.toNat = place + text.length := by
    rw [span]
    exact toU32_of_lt (by omega)
  have bounded := reads.bounded (by omega)
  refine ⟨fun below within => ?_, ⟨?_, by omega⟩, ?_⟩
  · have bounds := bounded below within
    exact ⟨UInt32.le_iff_toNat_le.2 (by omega), UInt32.le_iff_toNat_le.2 (by omega)⟩
  · exact UInt32.le_iff_toNat_le.2 (by omega)
  · have whole : StandsAt input place ([] ++ text) := stands
    rw [whole.cut (by simpa using start) stop]
    exact (reads.inside small).renders start

/-- The span over a flush left part is the span of the text. -/
theorem ReadsAs.span_flush {strict : Prop} {level place : Nat} {left : List Char} {l : Expr}
    (reads : ReadsAs strict level place left l) (small : level < 9) (flush : Flush left l)
    (fits : place + left.length < 2 ^ 32) (text : List Char) :
    spanOver l place text = spanAt place text := by
  rw [spanOver, spanAt, reads.flush_start small flush fits]

/-- In a strict reading all spans nest.

Proof: by induction on the reading. A flush left part begins where its text does,
so every compound node has exactly the span of its text, and the spans of its parts
lie within that text. -/
theorem ReadsAs.nested {input : List Char} {level place : Nat} {text : List Char} {e : Expr}
    (reads : ReadsAs True level place text e) (stands : StandsAt input place text)
    (short : input.length < 2 ^ 32) : Nested input e := by
  have parts_nil : ∀ {e : Expr}, e.parts = [] → ∀ part ∈ e.parts, Nested input part := by
    intro e none part listed
    rw [none] at listed
    cases listed
  induction reads with
  | ident | int | bool => exact .node (fun compound => by cases compound) (parts_nil rfl)
  | paren _ _ inductionHypothesis => exact inductionHypothesis stands.paren
  | primary _ inductionHypothesis => exact inductionHypothesis stands
  | raise _ _ inductionHypothesis => exact inductionHypothesis stands
  | plain _ inductionHypothesis => exact inductionHypothesis stands
  | close _ _ inductionHypothesis => exact inductionHypothesis stands.front
  | member _ _ _ inductionHypothesis =>
    refine .node (fun compound => by cases compound) fun part listed => ?_
    obtain rfl := List.mem_singleton.1 listed
    exact inductionHypothesis stands.front
  | @call place callee gap gap' e args blanks gaps closes aligned reads each flush calleeHypothesis
      argHypothesis =>
    have inside := stands.front.inside
    have span := reads.span_flush (by decide) (flush trivial) (by omega)
      (callee ++ (gap ++ ('(' :: (placedText args ++ (gap' ++ [')'])))))
    have whole := ReadsAs.call blanks gaps closes aligned reads each flush
    refine .node (fun _ => holds_of_extent short (by decide) stands whole span) fun part listed => ?_
    rcases List.mem_cons.1 listed with rfl | argument
    · exact calleeHypothesis stands.front
    · obtain ⟨arg, member, rfl⟩ := List.mem_map.1 argument
      exact argHypothesis arg member (stands.arguments.argument aligned member)
  | @index place base gap gap' position e i blanks reads inner flush baseHypothesis
      insideHypothesis =>
    have inside := stands.front.inside
    have span := reads.span_flush (by decide) (flush trivial) (by omega)
      (base ++ (gap ++ ('[' :: (gap' ++ (position ++ [']'])))))
    have whole := ReadsAs.index blanks reads inner flush
    refine .node (fun _ => holds_of_extent short (by decide) stands whole span) fun part listed => ?_
    simp only [Expr.parts, List.mem_cons, List.not_mem_nil, or_false] at listed
    rcases listed with rfl | rfl
    · exact baseHypothesis stands.front
    · exact insideHypothesis stands.position
  | unary spelled blank apart reads inductionHypothesis =>
    have whole := ReadsAs.unary spelled blank apart reads
    refine .node (fun _ => holds_of_extent short (by decide) stands whole rfl) fun part listed => ?_
    obtain rfl := List.mem_singleton.1 listed
    exact inductionHypothesis stands.operand
  | @binary level place op lexeme left gap right e f listed blank apartLeft apartRight leftReads
      rightReads flush leftHypothesis rightHypothesis =>
    have binary : level < 6 := by
      obtain ⟨rfl, _⟩ := listed_spelled listed
      cases op <;> decide
    have inside := stands.front.inside
    have span := leftReads.span_flush (by omega) (flush trivial) (by omega)
      (left ++ (lexeme.text.toList ++ (gap ++ right)))
    have whole := ReadsAs.binary listed blank apartLeft apartRight leftReads rightReads flush
    refine .node (fun _ => holds_of_extent short (by omega) stands whole span) fun part listed => ?_
    simp only [Expr.parts, List.mem_cons, List.not_mem_nil, or_false] at listed
    rcases listed with rfl | rfl
    · exact leftHypothesis stands.front
    · exact rightHypothesis stands.right
  | range blank startReads stopReads startHypothesis stopHypothesis =>
    have whole := ReadsAs.range blank startReads stopReads
    refine .node (fun _ => holds_of_extent short (by decide) stands whole rfl) fun part listed => ?_
    simp only [Expr.parts, List.mem_cons, List.not_mem_nil, or_false] at listed
    rcases listed with rfl | rfl
    · exact startHypothesis stands.front
    · exact stopHypothesis stands.stop

/-- A node that keeps what its span promises has a flush left part.

Proof: behind a member access something begins before the span of the node. In
front of a parenthesis the span leaves out what opens it, so the text at the span
closes more than it opens and renders nothing. -/
theorem SpanHolds.flush {input left more : List Char} {level place : Nat} {l e : Expr}
    (holds : SpanHolds input e) (listed : l ∈ e.parts)
    (span : e.span = spanOver l place (left ++ more)) (small : level < 9)
    (reads : ReadsAs False level place left l) (balanced : Balanced (left ++ more))
    (stands : StandsAt input place (left ++ more)) (short : input.length < 2 ^ 32) :
    Flush left l := by
  have inside := stands.inside
  have start : e.span.start = l.span.start := by rw [span]; rfl
  have stop : e.span.stop.toNat = place + (left ++ more).length := by
    rw [span]
    exact toU32_of_lt (by omega)
  rw [List.length_append] at inside
  have plain : l.headMember = false := by
    rw [← Bool.not_eq_true]
    intro member
    obtain ⟨node, below, earlier⟩ := reads.before_member member (by omega)
    have covered := (holds.covers node (.part listed below)).1
    rw [start] at covered
    exact absurd earlier (UInt32.not_lt.2 covered)
  refine ⟨plain, fun paren => ?_⟩
  obtain ⟨front, rest, rfl, closed, place', first⟩ := reads.starts small plain (by omega)
  rcases first with ⟨_, other⟩ | opened
  · exact other paren
  · obtain ⟨tail, rfl⟩ := List.head?_eq_some_iff.1 opened
    have whole : StandsAt input place (('(' :: tail) ++ (rest ++ more)) := by simpa using stands
    have cut := whole.cut (by rw [start]; exact place') (by simpa using stop)
    have rendered := holds.renders.balanced
    rw [cut] at rendered
    have none := List.count_eq_zero.2 closed
    simp only [Balanced, List.count_append, List.count_cons] at balanced rendered none
    simp at balanced none
    omega

/-- Where all spans nest, the reading is strict.

Proof: by induction on the reading, each node giving that its left part is flush. -/
theorem ReadsAs.strict {input : List Char} {level place : Nat} {text : List Char} {e : Expr}
    (reads : ReadsAs False level place text e) (stands : StandsAt input place text)
    (short : input.length < 2 ^ 32) (nested : Nested input e) : ReadsAs True level place text e := by
  have part : ∀ {e part : Expr}, part ∈ e.parts → Nested input e → Nested input part :=
    fun listed nested node inside => nested node (.part listed inside)
  induction reads with
  | ident isName free => exact .ident isName free
  | int numeral same => exact .int numeral same
  | bool place value => exact .bool place value
  | paren blank _ inner => exact .paren blank (inner stands.paren nested)
  | primary _ inner => exact .primary (inner stands nested)
  | raise binary _ inner => exact .raise binary (inner stands nested)
  | plain _ inner => exact .plain (inner stands nested)
  | close blank _ inner => exact .close blank (inner stands.front nested)
  | member blanks isName _ base =>
    exact .member blanks isName (base stands.front (part (List.mem_cons_self ..) nested))
  | call blanks gaps closes aligned reads each flush callee argument =>
    have whole := ReadsAs.call blanks gaps closes aligned reads each flush
    have holds := nested _ (.root _) rfl
    refine .call blanks gaps closes aligned
      (callee stands.front (part (List.mem_cons_self ..) nested)) (fun arg member => ?_) fun _ => ?_
    · exact argument arg member (stands.arguments.argument aligned member)
        (part (List.mem_cons_of_mem _ (List.mem_map_of_mem member)) nested)
    · exact holds.flush (List.mem_cons_self ..) rfl (by decide) reads whole.balanced stands short
  | index blanks reads inner flush base position =>
    have whole := ReadsAs.index blanks reads inner flush
    have holds := nested _ (.root _) rfl
    refine .index blanks (base stands.front (part (List.mem_cons_self ..) nested))
      (position stands.position (part (by simp [Expr.parts]) nested)) fun _ => ?_
    exact holds.flush (List.mem_cons_self ..) rfl (by decide) reads whole.balanced stands short
  | unary spelled blank apart _ operand =>
    exact .unary spelled blank apart (operand stands.operand (part (List.mem_cons_self ..) nested))
  | @binary level place op lexeme left gap right e f listed blank apartLeft apartRight leftReads
      rightReads flush left right =>
    have binary : level < 6 := by
      obtain ⟨rfl, _⟩ := listed_spelled listed
      cases op <;> decide
    have whole := ReadsAs.binary listed blank apartLeft apartRight leftReads rightReads flush
    have holds := nested _ (.root _) rfl
    refine .binary listed blank apartLeft apartRight
      (left stands.front (part (List.mem_cons_self ..) nested))
      (right stands.right (part (by simp [Expr.parts]) nested)) fun _ => ?_
    exact holds.flush (List.mem_cons_self ..) rfl (by omega) leftReads whole.balanced stands short
  | range blank _ _ start stop =>
    exact .range blank (start stands.front (part (List.mem_cons_self ..) nested))
      (stop stands.stop (part (by simp [Expr.parts]) nested))

/-- The spans of an accepted input nest exactly when it reads with flush left parts.

Proof: the reading of an input is unique, so a strict reading is that of the tree. -/
theorem spans_nested_iff_flush (input : String) (tree : Expr)
    (accepted : Expr.parse input = .ok tree) (short : input.toList.length < 2 ^ 32) :
    SpansNested input tree ↔ FlushText input := by
  constructor
  · intro nested
    obtain ⟨gap, text, shape, blank, reads⟩ := parse_reads accepted
    have stands : StandsAt input.toList gap.length text := ⟨gap, [], by simpa using shape, rfl⟩
    exact ⟨tree, gap, text, shape, blank, reads.strict stands short nested⟩
  · rintro ⟨e, gap, text, shape, blank, reads⟩
    have stands : StandsAt input.toList gap.length text := ⟨gap, [], by simpa using shape, rfl⟩
    have same : Expr.parse input = .ok e := reads_parse ⟨gap, text, shape, blank, reads⟩
    obtain rfl : tree = e := Except.ok.inj (accepted.symm.trans same)
    exact reads.nested stands short

theorem letter_reads {strict : Prop} (place : Nat) {c : Char} (starts : startsName c = true) :
    ReadsAs strict 8 place [c] (.ident (String.ofList [c]) (spanAt place [c])) := by
  have inside : inName c = true := by
    simp only [startsName, inName, Bool.or_eq_true] at starts ⊢
    tauto
  refine .ident ⟨⟨c, rfl, starts⟩, by simpa using inside⟩ ?_
  intro listed
  have lengths : ∀ word ∈ keywords, word.toList.length ≠ 1 := by decide
  exact lengths _ listed (by rw [String.toList_ofList]; rfl)

theorem spans_nested_sum :
    ∃ tree, Expr.parse "a + b" = .ok tree ∧ SpansNested "a + b" tree := by
  have a : ReadsAs True 5 0 (['a'] ++ [' ']) _ :=
    .raise (by decide) (.close (by simp [Gap]; decide) (.primary (letter_reads 0 (by decide))))
  have b : ReadsAs True 5 4 (['b'] ++ []) _ :=
    .raise (by decide) (.close gap_nil (.primary (letter_reads 4 (by decide))))
  have listed : (Lexeme.symbol "+", BinOp.add) ∈ operators 4 := by decide
  have blank : Gap [' '] := by simp [Gap]; decide
  have sum := ReadsAs.binary listed blank (.of_stops (by simp [Lexeme.text]; decide))
    (apart_of_stops (by simp; decide)) (.raise (by decide) a) b fun _ => ⟨rfl, by decide⟩
  have whole : ReadsWhole True "a + b" _ := ⟨[], _, by decide, gap_nil, sum.loosest (by decide)⟩
  have accepted := reads_parse whole
  exact ⟨_, accepted, (spans_nested_iff_flush _ _ accepted (by decide)).2 ⟨_, whole⟩⟩

/-- A call of a member leaves out the base. -/
theorem member_call_not_nested :
    ¬ ∀ (input : String) (tree : Expr), Expr.parse input = .ok tree → SpansNested input tree := by
  intro nested
  have a : ReadsAs False 7 0 ['a'] _ := .primary (letter_reads 0 (by decide))
  have b : ReadsAs False 7 0 ['a', '.', 'b'] _ :=
    ReadsAs.member ⟨gap_nil, gap_nil⟩ ⟨⟨'b', rfl, by decide⟩, by simp; decide⟩ a
  have c : ReadsAs False 0 4 (['c'] ++ []) _ :=
    .loosest (by decide) (.close gap_nil (.primary (letter_reads 4 (by decide))))
  have blanks : Gap [] ∧ Gap [] := ⟨gap_nil, gap_nil⟩
  have call := @ReadsAs.call False 0 ['a', '.', 'b'] [] [] _ [⟨[], 4, ['c'], _⟩] blanks (by simp)
    (by simp) ⟨rfl, trivial⟩ b (by simpa using c) False.elim
  have whole : ReadsWhole False "a.b(c)" _ :=
    ⟨[], _, by decide, gap_nil, .loosest (by decide) (.close gap_nil call)⟩
  have holds := nested _ _ (reads_parse whole) _ (.root _) rfl
  have covered := (holds.covers _ (.part (List.mem_cons_self ..)
    (.part (List.mem_cons_self ..) (.root _)))).1
  exact absurd covered (by decide)

end Semasm.Contract
