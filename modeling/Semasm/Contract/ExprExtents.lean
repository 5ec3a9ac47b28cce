import Semasm.Contract.ExprReadings

/-!
# The extents of a reading

The spans inside a reading lie within its text. The span of a call, an index or a
binary expression begins where the span of its left part begins: of a member access
that is the field, not the base before it, and in front of a parenthesis the span
begins behind it. A reading closes as many parentheses as it opens, and its parts
stand at their places in the input.
-/

namespace Semasm.Contract

open Library.Scanning ExprParser

/-! ## The nodes of a tree -/

/-- The parts of a node. -/
def Expr.parts : Expr → List Expr
  | .int _ _ | .bool _ _ | .ident _ _ => []
  | .member base _ _ => [base]
  | .call callee args _ => callee :: args
  | .range start stop _ => [start, stop]
  | .index base position _ => [base, position]
  | .unary _ operand _ => [operand]
  | .binary _ left right _ => [left, right]

/-- A node of a tree, the root included. -/
inductive Inside : Expr → Expr → Prop
  | root (tree : Expr) : Inside tree tree
  | part {node part tree : Expr} (listed : part ∈ tree.parts) (inside : Inside node part) :
      Inside node tree

/-- The text at a span. -/
def textAt (input : List Char) (span : SourceSpan) : List Char :=
  (input.take span.stop.toNat).drop span.start.toNat

/-! ## Where spans begin and end -/

theorem toU32_of_lt {offset : Nat} (small : offset < 2 ^ 32) : (toU32 offset).toNat = offset := by
  rw [toU32, if_pos small]
  exact UInt32.toNat_ofNat_of_lt' small

/-- Every span inside lies between two offsets and is not empty. -/
def Bounded (low high : Nat) (e : Expr) : Prop :=
  ∀ node, Inside node e → low ≤ node.span.start.toNat ∧
    node.span.start.toNat < node.span.stop.toNat ∧ node.span.stop.toNat ≤ high

theorem Bounded.mono {low high low' high' : Nat} {e : Expr} (bounded : Bounded low' high' e)
    (below : low ≤ low') (above : high' ≤ high) : Bounded low high e := by
  intro node inside
  have inner := bounded node inside
  omega

theorem Bounded.node {low high : Nat} {e : Expr} (start : low ≤ e.span.start.toNat)
    (some : e.span.start.toNat < e.span.stop.toNat) (stop : e.span.stop.toNat ≤ high)
    (parts : ∀ part ∈ e.parts, Bounded low high part) : Bounded low high e := by
  intro node inside
  cases inside with
  | root => exact ⟨start, some, stop⟩
  | part listed inside => exact parts _ listed node inside

/-- A node with a span of its own around the spans of its parts. -/
theorem Bounded.at {place : Nat} {text : List Char} {e : Expr} (span : e.span = spanAt place text)
    (some : text ≠ []) (fits : place + text.length < 2 ^ 32)
    (parts : ∀ part ∈ e.parts, Bounded place (place + text.length) part) :
    Bounded place (place + text.length) e := by
  have positive := List.length_pos_iff.2 some
  have start : e.span.start.toNat = place := by
    rw [span]
    exact toU32_of_lt (by omega)
  have stop : e.span.stop.toNat = place + text.length := by
    rw [span]
    exact toU32_of_lt fits
  exact .node (by omega) (by omega) (by omega) parts

/-- A node whose span begins with that of its left part. -/
theorem Bounded.over {place : Nat} {left more : List Char} {e l : Expr}
    (span : e.span = spanOver l place (left ++ more)) (some : more ≠ [])
    (fits : place + (left ++ more).length < 2 ^ 32) (bounded : Bounded place (place + left.length) l)
    (parts : ∀ part ∈ e.parts, Bounded place (place + (left ++ more).length) part) :
    Bounded place (place + (left ++ more).length) e := by
  have positive := List.length_pos_iff.2 some
  have first := bounded l (.root l)
  have start : e.span.start = l.span.start := by rw [span]; rfl
  have stop : e.span.stop.toNat = place + (left ++ more).length := by
    rw [span]
    exact toU32_of_lt fits
  rw [List.length_append] at *
  exact .node (by rw [start]; omega) (by rw [start]; omega) (by omega) parts

theorem aligned_bounds {start : Nat} {args : List PlacedArg} (aligned : Aligned start args)
    {arg : PlacedArg} (member : arg ∈ args) :
    start ≤ arg.place ∧ arg.place + arg.text.length ≤ start + (placedText args).length := by
  induction args generalizing start with
  | nil => cases member
  | cons head rest inductionHypothesis =>
    obtain ⟨place, onward⟩ := aligned
    rcases List.mem_cons.1 member with rfl | later
    · cases rest with
      | nil => simp only [placedText, List.length_append]; omega
      | cons next rest => simp only [placedText, List.length_append]; omega
    · have inner := inductionHypothesis onward later
      cases rest with
      | nil => cases later
      | cons next rest =>
        simp only [placedText, List.length_append, List.length_cons] at inner ⊢
        omega

/-- The spans of a reading lie within its text. -/
theorem ReadsAs.bounded {strict : Prop} {level place : Nat} {text : List Char} {e : Expr}
    (reads : ReadsAs strict level place text e) (fits : place + text.length < 2 ^ 32) :
    Bounded place (place + text.length) e := by
  induction reads with
  | ident isName _ => exact .at rfl isName.nonempty fits (by simp [Expr.parts])
  | int numeral _ => exact .at rfl numeral.nonempty fits (by simp [Expr.parts])
  | bool place value =>
    exact .at rfl (by cases value <;> decide) fits (by simp [Expr.parts])
  | paren _ _ inductionHypothesis =>
    simp only [List.length_append, List.length_cons] at fits ⊢
    exact (inductionHypothesis (by omega)).mono (by omega) (by omega)
  | primary _ inductionHypothesis => exact inductionHypothesis fits
  | raise _ _ inductionHypothesis => exact inductionHypothesis fits
  | plain _ inductionHypothesis => exact inductionHypothesis fits
  | close _ _ inductionHypothesis =>
    simp only [List.length_append] at fits ⊢
    exact (inductionHypothesis (by omega)).mono (by omega) (by omega)
  | @member place base gap gap' field e _ isName _ inductionHypothesis =>
    have length : (base ++ (gap ++ ('.' :: (gap' ++ field)))).length =
        base.length + gap.length + 1 + (gap' ++ field).length := by
      simp only [List.length_append, List.length_cons]
      omega
    rw [length] at fits ⊢
    have inner := inductionHypothesis (by omega)
    have named : gap' ++ field ≠ [] := by simp [isName.nonempty]
    have positive := List.length_pos_iff.2 named
    have start : (toU32 (place + base.length + gap.length + 1)).toNat = _ :=
      toU32_of_lt (by omega)
    have stop : (toU32 (place + base.length + gap.length + 1 + (gap' ++ field).length)).toNat = _ :=
      toU32_of_lt (by omega)
    refine .node ?_ ?_ ?_ ?_
    · change _ ≤ (toU32 _).toNat
      omega
    · change (toU32 _).toNat < (toU32 _).toNat
      omega
    · change (toU32 _).toNat ≤ _
      omega
    · intro part listed
      obtain rfl : part = e := by simpa [Expr.parts] using listed
      exact inner.mono (by omega) (by omega)
  | @call place callee gap gap' e args _ _ _ aligned _ _ _ calleeHypothesis argHypothesis =>
    have length : (callee ++ (gap ++ ('(' :: (placedText args ++ (gap' ++ [')']))))).length =
        callee.length + gap.length + 1 + (placedText args).length + gap'.length + 1 := by
      simp only [List.length_append, List.length_cons, List.length_nil]
      omega
    have inner := calleeHypothesis (by omega)
    refine .over rfl (by simp) fits inner ?_
    rw [length] at fits ⊢
    intro part listed
    rcases List.mem_cons.1 listed with rfl | argument
    · exact inner.mono (by omega) (by omega)
    · obtain ⟨arg, member, rfl⟩ := List.mem_map.1 argument
      have bounds := aligned_bounds aligned member
      exact (argHypothesis arg member (by omega)).mono (by omega) (by omega)
  | @index place base gap gap' position e i _ _ _ _ baseHypothesis insideHypothesis =>
    have length : (base ++ (gap ++ ('[' :: (gap' ++ (position ++ [']']))))).length =
        base.length + gap.length + 1 + gap'.length + position.length + 1 := by
      simp only [List.length_append, List.length_cons, List.length_nil]
      omega
    have inner := baseHypothesis (by omega)
    refine .over rfl (by simp) fits inner ?_
    rw [length] at fits ⊢
    intro part listed
    simp only [Expr.parts, List.mem_cons, List.not_mem_nil, or_false] at listed
    rcases listed with rfl | rfl
    · exact inner.mono (by omega) (by omega)
    · exact (insideHypothesis (by omega)).mono (by omega) (by omega)
  | @unary place op lexeme gap operand e _ _ _ reads inductionHypothesis =>
    refine .at rfl (by simp [reads.nonempty]) fits ?_
    simp only [List.length_append] at fits ⊢
    intro part listed
    obtain rfl : part = e := by simpa [Expr.parts] using listed
    exact (inductionHypothesis (by omega)).mono (by omega) (by omega)
  | @binary level place op lexeme left gap right e f _ _ _ _ _ rightReads _ leftHypothesis
      rightHypothesis =>
    have length : (left ++ (lexeme.text.toList ++ (gap ++ right))).length =
        left.length + lexeme.text.toList.length + gap.length + right.length := by
      simp only [List.length_append]
      omega
    have inner := leftHypothesis (by omega)
    refine .over rfl (by simp [rightReads.nonempty]) fits inner ?_
    rw [length] at fits ⊢
    intro part listed
    simp only [Expr.parts, List.mem_cons, List.not_mem_nil, or_false] at listed
    rcases listed with rfl | rfl
    · exact inner.mono (by omega) (by omega)
    · exact (rightHypothesis (by omega)).mono (by omega) (by omega)
  | @range place start gap stop lo hi _ startReads _ startHypothesis stopHypothesis =>
    refine .at rfl (by simp) fits ?_
    simp only [List.length_append, List.length_cons] at fits ⊢
    intro part listed
    simp only [Expr.parts, List.mem_cons, List.not_mem_nil, or_false] at listed
    rcases listed with rfl | rfl
    · exact (startHypothesis (by omega)).mono (by omega) (by omega)
    · exact (stopHypothesis (by omega)).mono (by omega) (by omega)

/-- What stands before the span of an expression that begins with no member access:
nothing, or opening parentheses and blanks. -/
theorem ReadsAs.starts {strict : Prop} {level place : Nat} {text : List Char} {e : Expr}
    (reads : ReadsAs strict level place text e) (small : level < 9) (plain : e.headMember = false)
    (fits : place + text.length < 2 ^ 32) :
    ∃ front rest, text = front ++ rest ∧ ')' ∉ front ∧
      e.span.start.toNat = place + front.length ∧
      (front = [] ∧ text.head? ≠ some '(' ∨ front.head? = some '(') := by
  have leaf : ∀ {place : Nat} {text : List Char} {e : Expr}, e.span = spanAt place text →
      place + text.length < 2 ^ 32 → text.head? ≠ some '(' →
      ∃ front rest, text = front ++ rest ∧ ')' ∉ front ∧
        e.span.start.toNat = place + front.length ∧
        (front = [] ∧ text.head? ≠ some '(' ∨ front.head? = some '(') := by
    intro place text e span fits other
    refine ⟨[], text, rfl, by simp, ?_, .inl ⟨rfl, other⟩⟩
    rw [span]
    exact toU32_of_lt (by omega)
  have extend : ∀ {place : Nat} {left : List Char} {l e : Expr} (more : List Char),
      e.span.start = l.span.start → left ≠ [] →
      (∃ front rest, left = front ++ rest ∧ ')' ∉ front ∧
        l.span.start.toNat = place + front.length ∧
        (front = [] ∧ left.head? ≠ some '(' ∨ front.head? = some '(')) →
      ∃ front rest, left ++ more = front ++ rest ∧ ')' ∉ front ∧
        e.span.start.toNat = place + front.length ∧
        (front = [] ∧ (left ++ more).head? ≠ some '(' ∨ front.head? = some '(') := by
    rintro place left l e more same some ⟨front, rest, rfl, closed, start, first⟩
    refine ⟨front, rest ++ more, by simp, closed, by rw [same, start], ?_⟩
    refine first.imp_left fun both => ⟨both.1, ?_⟩
    obtain ⟨c, tail, shape⟩ := List.exists_cons_of_ne_nil some
    rw [shape, List.cons_append, List.head?_cons, ← List.head?_cons (l := tail), ← shape]
    exact both.2
  induction reads with
  | ident isName _ =>
    refine leaf rfl fits ?_
    obtain ⟨⟨c, first, starts⟩, _⟩ := isName
    rintro paren
    rw [Option.mem_def, paren, Option.some.injEq] at first
    subst first
    exact absurd starts (by decide)
  | int numeral _ =>
    refine leaf rfl fits fun paren => ?_
    exact absurd (numeral.1 '(' (List.mem_of_mem_head? paren)) (by decide)
  | bool place value => exact leaf rfl fits (by cases value <;> decide)
  | @paren place gap inner e blank _ inductionHypothesis =>
    simp only [List.length_append, List.length_cons] at fits
    obtain ⟨front, rest, rfl, closed, start, _⟩ :=
      inductionHypothesis (by decide) plain (by omega)
    refine ⟨'(' :: (gap ++ front), rest ++ [')'], by simp, ?_, ?_, .inr rfl⟩
    · simp only [List.mem_cons, List.mem_append, not_or]
      refine ⟨by decide, fun member => ?_, closed⟩
      exact absurd (blank _ member) (by decide)
    · rw [start]
      simp only [List.length_cons, List.length_append]
      omega
  | primary _ inductionHypothesis => exact inductionHypothesis (by decide) plain fits
  | raise binary _ inductionHypothesis => exact inductionHypothesis (by omega) plain fits
  | close _ reads inductionHypothesis =>
    rw [List.length_append] at fits
    exact extend _ rfl reads.nonempty (inductionHypothesis (by decide) plain (by omega))
  | member => cases plain
  | call _ _ _ _ reads _ _ calleeHypothesis _ =>
    rw [List.length_append] at fits
    exact extend _ rfl reads.nonempty (calleeHypothesis (by decide) plain (by omega))
  | index _ reads _ _ baseHypothesis _ =>
    rw [List.length_append] at fits
    exact extend _ rfl reads.nonempty (baseHypothesis (by decide) plain (by omega))
  | binary _ _ _ _ reads _ _ leftHypothesis _ =>
    rw [List.length_append] at fits
    exact extend _ rfl reads.nonempty (leftHypothesis small plain (by omega))
  | @unary _ op lexeme _ _ _ spelled _ _ _ _ =>
    refine leaf rfl fits ?_
    cases op <;> simp only [UnaryOp.spellings, List.mem_cons, List.not_mem_nil, or_false] at spelled
    · rcases spelled with rfl | rfl <;> simp [Lexeme.text]
    · subst spelled
      simp [Lexeme.text]
  | plain | range => exact absurd small (by decide)

/-- The span of a flush left part begins at its first symbol. -/
theorem ReadsAs.flush_start {strict : Prop} {level place : Nat} {text : List Char} {e : Expr}
    (reads : ReadsAs strict level place text e) (small : level < 9) (flush : Flush text e)
    (fits : place + text.length < 2 ^ 32) : e.span.start = toU32 place := by
  obtain ⟨front, rest, rfl, _, start, first⟩ := reads.starts small flush.1 fits
  rcases first with ⟨rfl, _⟩ | paren
  · refine UInt32.toNat_inj.1 ?_
    rw [start, toU32_of_lt (by omega), List.length_nil, Nat.add_zero]
  · refine absurd ?_ flush.2
    rw [List.head?_append, paren]
    rfl

/-- Behind a member access at the front something begins before the span. -/
theorem ReadsAs.before_member {strict : Prop} {level place : Nat} {text : List Char} {e : Expr}
    (reads : ReadsAs strict level place text e) (member : e.headMember = true)
    (fits : place + text.length < 2 ^ 32) :
    ∃ node, Inside node e ∧ node.span.start < e.span.start := by
  induction reads with
  | ident | int | bool | unary | range => cases member
  | paren _ _ inductionHypothesis =>
    simp only [List.length_append, List.length_cons] at fits
    exact inductionHypothesis member (by omega)
  | primary _ inductionHypothesis => exact inductionHypothesis member fits
  | raise _ _ inductionHypothesis => exact inductionHypothesis member fits
  | plain _ inductionHypothesis => exact inductionHypothesis member fits
  | close _ _ inductionHypothesis =>
    rw [List.length_append] at fits
    exact inductionHypothesis member (by omega)
  | @member place base gap gap' field e _ _ reads _ =>
    simp only [List.length_append, List.length_cons] at fits
    have base := reads.bounded (by omega) e (.root e)
    refine ⟨e, .part (List.mem_singleton_self e) (.root e), UInt32.lt_iff_toNat_lt.2 ?_⟩
    change _ < (toU32 _).toNat
    rw [toU32_of_lt (by omega)]
    omega
  | call _ _ _ _ _ _ _ calleeHypothesis _ =>
    rw [List.length_append] at fits
    obtain ⟨node, inside, earlier⟩ := calleeHypothesis member (by omega)
    exact ⟨node, .part (List.mem_cons_self ..) inside, earlier⟩
  | index _ _ _ _ baseHypothesis _ =>
    rw [List.length_append] at fits
    obtain ⟨node, inside, earlier⟩ := baseHypothesis member (by omega)
    exact ⟨node, .part (List.mem_cons_self ..) inside, earlier⟩
  | binary _ _ _ _ _ _ _ leftHypothesis _ =>
    rw [List.length_append] at fits
    obtain ⟨node, inside, earlier⟩ := leftHypothesis member (by omega)
    exact ⟨node, .part (List.mem_cons_self ..) inside, earlier⟩

/-! ## Parentheses -/

theorem parens_of_kind {kind : Char → Bool} {text : List Char}
    (all : ∀ c ∈ text, kind c = true) (opening : kind '(' = false) (closing : kind ')' = false) :
    text.count '(' = 0 ∧ text.count ')' = 0 := by
  constructor <;> refine List.count_eq_zero.2 fun member => ?_
  · rw [all _ member] at opening
    cases opening
  · rw [all _ member] at closing
    cases closing

theorem Gap.parens {gap : List Char} (blank : Gap gap) :
    gap.count '(' = 0 ∧ gap.count ')' = 0 := parens_of_kind blank (by decide) (by decide)

theorem operator_parens {level : Nat} {lexeme : Lexeme} {op : BinOp}
    (listed : (lexeme, op) ∈ operators level) :
    lexeme.text.toList.count '(' = 0 ∧ lexeme.text.toList.count ')' = 0 := by
  have all : ∀ entry ∈ operators level,
      entry.1.text.toList.count '(' = 0 ∧ entry.1.text.toList.count ')' = 0 := by
    match level with
    | 0 | 1 | 2 | 3 | 4 | 5 => decide
    | level + 6 => simp [operators]
  exact all _ listed

theorem unary_parens {op : UnaryOp} {lexeme : Lexeme} (spelled : lexeme ∈ op.spellings) :
    lexeme.text.toList.count '(' = 0 ∧ lexeme.text.toList.count ')' = 0 := by
  have all : ∀ lexeme ∈ op.spellings,
      lexeme.text.toList.count '(' = 0 ∧ lexeme.text.toList.count ')' = 0 := by
    cases op <;> decide
  exact all _ spelled

/-- As many parentheses are closed as are opened. -/
def Balanced (text : List Char) : Prop := text.count '(' = text.count ')'

theorem placed_balanced {args : List PlacedArg} (gaps : ∀ arg ∈ args, Gap arg.gap)
    (each : ∀ arg ∈ args, Balanced arg.text) : Balanced (placedText args) := by
  induction args with
  | nil => rfl
  | cons arg rest inductionHypothesis =>
    have blank := (gaps arg (List.mem_cons_self ..)).parens
    have own : Balanced arg.text := each arg (List.mem_cons_self ..)
    have later := inductionHypothesis (fun other member => gaps other (List.mem_cons_of_mem _ member))
      (fun other member => each other (List.mem_cons_of_mem _ member))
    cases rest with
    | nil => simp_all [Balanced, placedText]
    | cons next rest => simp_all [Balanced, placedText]

theorem ReadsAs.balanced {strict : Prop} {level place : Nat} {text : List Char} {e : Expr}
    (reads : ReadsAs strict level place text e) : Balanced text := by
  induction reads with
  | ident isName _ =>
    have none := parens_of_kind isName.2 (by decide) (by decide)
    exact none.1.trans none.2.symm
  | int numeral _ =>
    have none := parens_of_kind numeral.1 (by decide) (by decide)
    exact none.1.trans none.2.symm
  | bool place value => cases value <;> rfl
  | paren blank _ inner => simp_all [Balanced, blank.parens]
  | primary _ inner => exact inner
  | raise _ _ inner => exact inner
  | plain _ inner => exact inner
  | close blank _ inner => simp_all [Balanced, blank.parens]
  | member blanks isName _ base =>
    have none := parens_of_kind isName.2 (by decide) (by decide)
    simp_all [Balanced, blanks.1.parens, blanks.2.parens]
  | call blanks gaps _ _ _ _ _ callee each =>
    have placed := placed_balanced gaps each
    simp_all [Balanced, blanks.1.parens, blanks.2.parens]
  | index blanks _ _ _ base position =>
    simp_all [Balanced, blanks.1.parens, blanks.2.parens]
  | unary spelled blank _ _ operand =>
    have none := unary_parens spelled
    simp_all [Balanced, blank.parens]
  | binary listed blank _ _ _ _ _ left right =>
    have none := operator_parens listed
    simp_all [Balanced, blank.parens]
  | range blank _ _ start stop => simp_all [Balanced, blank.parens]

/-! ## Texts inside the input -/

/-- The text stands at a place of the input. -/
def StandsAt (input : List Char) (place : Nat) (text : List Char) : Prop :=
  ∃ before after, input = before ++ (text ++ after) ∧ before.length = place

theorem StandsAt.part {input front text back : List Char} {place : Nat}
    (stands : StandsAt input place (front ++ (text ++ back))) :
    StandsAt input (place + front.length) text := by
  obtain ⟨before, after, rfl, rfl⟩ := stands
  exact ⟨before ++ front, back ++ after, by simp, by simp⟩

theorem StandsAt.front {input text back : List Char} {place : Nat}
    (stands : StandsAt input place (text ++ back)) : StandsAt input place text := by
  obtain ⟨before, after, rfl, here⟩ := stands
  exact ⟨before, back ++ after, by simp, here⟩

section Parts

variable {input gap gap' : List Char} {place : Nat}

theorem StandsAt.paren {inner : List Char}
    (stands : StandsAt input place ('(' :: (gap ++ (inner ++ [')'])))) :
    StandsAt input (place + 1 + gap.length) inner := by
  have opened : StandsAt input place (('(' :: gap) ++ (inner ++ [')'])) := stands
  have there : place + ('(' :: gap).length = place + 1 + gap.length := by
    rw [List.length_cons]
    omega
  exact there ▸ opened.part

theorem StandsAt.arguments {callee arguments : List Char}
    (stands : StandsAt input place (callee ++ (gap ++ ('(' :: (arguments ++ (gap' ++ [')'])))))) :
    StandsAt input (place + callee.length + gap.length + 1) arguments := by
  have opened : StandsAt input place ((callee ++ (gap ++ ['('])) ++
      (arguments ++ (gap' ++ [')']))) := by simpa using stands
  have there : place + (callee ++ (gap ++ ['('])).length =
      place + callee.length + gap.length + 1 := by
    simp only [List.length_append, List.length_cons, List.length_nil]
    omega
  exact there ▸ opened.part

theorem StandsAt.position {base position : List Char}
    (stands : StandsAt input place (base ++ (gap ++ ('[' :: (gap' ++ (position ++ [']'])))))) :
    StandsAt input (place + base.length + gap.length + 1 + gap'.length) position := by
  have opened : StandsAt input place ((base ++ (gap ++ ('[' :: gap'))) ++ (position ++ [']'])) := by
    simpa using stands
  have there : place + (base ++ (gap ++ ('[' :: gap'))).length =
      place + base.length + gap.length + 1 + gap'.length := by
    simp only [List.length_append, List.length_cons]
    omega
  exact there ▸ opened.part

theorem StandsAt.operand {front operand : List Char}
    (stands : StandsAt input place (front ++ (gap ++ operand))) :
    StandsAt input (place + front.length + gap.length) operand := by
  have opened : StandsAt input place ((front ++ gap) ++ (operand ++ [])) := by simpa using stands
  have there : place + (front ++ gap).length = place + front.length + gap.length := by
    rw [List.length_append]
    omega
  exact there ▸ opened.part

theorem StandsAt.right {left operator right : List Char}
    (stands : StandsAt input place (left ++ (operator ++ (gap ++ right)))) :
    StandsAt input (place + left.length + operator.length + gap.length) right := by
  have further : StandsAt input place ((left ++ operator) ++ (gap ++ right)) := by
    simpa using stands
  have there : place + (left ++ operator).length = place + left.length + operator.length := by
    rw [List.length_append]
    omega
  exact there ▸ further.operand

theorem StandsAt.stop {start stop : List Char}
    (stands : StandsAt input place (start ++ ('.' :: '.' :: (gap ++ stop)))) :
    StandsAt input (place + start.length + 2 + gap.length) stop := by
  have dots : StandsAt input place (start ++ (['.', '.'] ++ (gap ++ stop))) := stands
  exact dots.right

end Parts

theorem StandsAt.inside {input text : List Char} {place : Nat} (stands : StandsAt input place text) :
    place + text.length ≤ input.length := by
  obtain ⟨before, after, rfl, rfl⟩ := stands
  simp only [List.length_append]
  omega

theorem StandsAt.cut {input front rest : List Char} {place : Nat}
    (stands : StandsAt input place (front ++ rest)) {span : SourceSpan}
    (start : span.start.toNat = place + front.length)
    (stop : span.stop.toNat = place + (front ++ rest).length) : textAt input span = rest := by
  obtain ⟨before, after, rfl, rfl⟩ := stands
  have cut : (before ++ (front ++ rest ++ after)).take (before.length + (front ++ rest).length) =
      before ++ (front ++ rest) := by
    rw [List.take_length_add_append, List.take_left]
  rw [textAt, stop, cut, start, ← List.append_assoc, ← List.length_append,
    List.drop_left]

/-- Every argument stands at its place. -/
theorem StandsAt.argument {input : List Char} {start : Nat} {args : List PlacedArg}
    (stands : StandsAt input start (placedText args)) (aligned : Aligned start args)
    {arg : PlacedArg} (member : arg ∈ args) : StandsAt input arg.place arg.text := by
  induction args generalizing start with
  | nil => cases member
  | cons head rest inductionHypothesis =>
    obtain ⟨place, onward⟩ := aligned
    cases rest with
    | nil =>
      obtain rfl := List.mem_singleton.1 member
      have only : StandsAt input start (arg.gap ++ (arg.text ++ [])) := by
        simpa [placedText] using stands
      rw [place]
      exact only.part
    | cons next rest =>
      rcases List.mem_cons.1 member with rfl | later
      · rw [place]
        exact stands.part
      · refine inductionHypothesis ?_ onward later
        have further : StandsAt input start ((head.gap ++ (head.text ++ [','])) ++
            (placedText (next :: rest) ++ [])) := by simpa [placedText] using stands
        have there : head.place + head.text.length + 1 =
            start + (head.gap ++ (head.text ++ [','])).length := by
          rw [place]
          simp only [List.length_append, List.length_cons, List.length_nil]
          omega
        rw [there]
        exact further.part

end Semasm.Contract
