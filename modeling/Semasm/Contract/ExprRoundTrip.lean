import Semasm.Contract.ExprForms

/-!
# The expression parser inverts printing

By induction on how a text prints an expression, every printed expression is read
in the form of its level: what stands in parentheses, brackets or an argument
list is shorter than the text around it, so the fuel suffices. `Expr::parse`
therefore yields the printed expression up to its spans, and every expression of
the language has a text that prints it.
-/

namespace Semasm.Contract

open Library.Scanning ExprParser

theorem parseImplies_passesBlanks (fuel : Nat) : PassesBlanks (parseImplies fuel) := by
  have level_passes : ∀ (entries : List (Lexeme × BinOp)) (operand : Parser Expr),
      PassesBlanks operand → PassesBlanks (binaryLevel entries operand) := by
    intro entries operand passes cursor
    simp only [binaryLevel, passes cursor]
  cases fuel with
  | zero => exact fun _ => rfl
  | succ fuel =>
    have unary_passes : PassesBlanks (parseUnary (parseImplies fuel)) := by
      intro cursor
      simp only [parseUnary, skipWs_idem]
    exact level_passes _ _ (level_passes _ _ (level_passes _ _ (level_passes _ _
      (level_passes _ _ (level_passes _ _ unary_passes)))))

/-- An expression of the loosest level is read inside, with fuel for its text. -/
theorem reads_inside {text : List Char} {e : Expr} (fuel : Nat)
    (reads : ∀ less, text.length ≤ less → ReadsLevel (parseImplies less) text e 0)
    (enough : text.length < fuel) : ReadsInside (parseImplies fuel) text e := by
  obtain ⟨less, rfl⟩ := Nat.exists_eq_add_one.2 (Nat.zero_lt_of_lt enough)
  intro pos rest closing apart
  exact (reads less (by omega)).ends (by decide) pos rest (by omega) apart

theorem argument_length {args : List PrintedArg} {arg : PrintedArg} (member : arg ∈ args) :
    arg.text.length ≤ (argumentsText args).length := by
  induction args with
  | nil => cases member
  | cons head rest inductionHypothesis =>
    cases rest with
    | nil =>
      rw [List.mem_singleton] at member
      subst member
      simp [argumentsText]
    | cons next rest =>
      simp only [argumentsText, List.length_append]
      rcases List.mem_cons.1 member with rfl | later
      · omega
      · have shorter := inductionHypothesis later
        omega

/-- Every printed expression is read in the form of its level.

Proof: by induction on how the text prints it. A text in parentheses, brackets or
an argument list is shorter than the text around it, so the fuel left suffices. -/
theorem Prints.reads {level : Nat} {text : List Char} {e : Expr} (prints : Prints level text e)
    (fuel : Nat) (enough : text.length ≤ fuel) : ReadsLevel (parseImplies fuel) text e level := by
  induction prints generalizing fuel with
  | raise below _ inductionHypothesis => exact (inductionHypothesis fuel enough).raise below
  | @binary op lexeme left gap right e f span spelled blank apartLeft apartRight _ rightPrints
      leftHypothesis rightHypothesis =>
    simp only [List.length_append] at enough
    have loop : ∀ (text : List Char) (e : Expr), ReadsLevel (parseImplies fuel) text e op.level =
        ReadsBinary (parseImplies fuel) op.level text e := by
      intro text e
      cases op <;> rfl
    have leftReads := leftHypothesis fuel (by omega)
    rw [loop] at leftReads ⊢
    have rightReads := (rightHypothesis fuel (by omega)).ends (by cases op <;> decide)
    exact binary_reads span spelled blank apartLeft apartRight rightPrints.begins leftReads
      rightReads
  | unary span spelled blank apart operandPrints inductionHypothesis =>
    simp only [List.length_append] at enough
    exact unary_reads span spelled blank apart operandPrints.begins
      (inductionHypothesis fuel (by omega))
  | member span blanks isName _ inductionHypothesis =>
    simp only [List.length_append] at enough
    have base := inductionHypothesis fuel (by omega)
    exact ⟨member_reads span blanks isName base.1,
      base.2.extend blanks.1 (by decide) (by simp; decide)⟩
  | @call callee gap gap' e span args blanks gaps _ each calleeHypothesis argHypothesis =>
    simp only [List.length_append] at enough
    have base := calleeHypothesis fuel (by omega)
    have brackets : 0 < "(".toList.length := by decide
    have readable : ∀ arg ∈ args, arg.Readable (parseImplies fuel) := fun arg member =>
      ⟨gaps arg member, (each arg member).begins, reads_inside fuel (argHypothesis arg member) (by
        have shorter := argument_length member
        omega)⟩
    exact ⟨call_reads (parseImplies_passesBlanks fuel) span args blanks readable base.1,
      base.2.extend blanks.1 (by decide) (by simp; decide)⟩
  | index span blanks _ _ baseHypothesis insideHypothesis =>
    simp only [List.length_append] at enough
    have brackets : 0 < "[".toList.length := by decide
    have base := baseHypothesis fuel (by omega)
    have inside := reads_inside fuel insideHypothesis (by omega)
    exact ⟨index_reads (parseImplies_passesBlanks fuel) span blanks inside base.1,
      base.2.extend blanks.1 (by decide) (by simp; decide)⟩
  | indexRange span inner blanks _ _ _ baseHypothesis startHypothesis stopHypothesis =>
    simp only [List.length_append] at enough
    have brackets : 0 < "[".toList.length := by decide
    have base := baseHypothesis fuel (by omega)
    have start := reads_inside fuel startHypothesis (by omega)
    have stop := reads_inside fuel stopHypothesis (by omega)
    exact ⟨indexRange_reads (parseImplies_passesBlanks fuel) span inner blanks start stop base.1,
      base.2.extend blanks.1 (by decide) (by simp; decide)⟩
  | paren blanks _ inductionHypothesis =>
    simp only [List.length_append] at enough
    have brackets : 0 < "(".toList.length := by decide
    exact ⟨paren_reads blanks (reads_inside fuel inductionHypothesis (by omega)),
      noPrefix_of_first blanks.1 (by decide) (by decide)⟩
  | ident span blank isName free => exact ident_reads span blank isName free
  | int span blank numeral same => exact int_reads span blank numeral same
  | bool value span blank => exact bool_reads value span blank

/-- `Expr::parse` inverts printing: every text that prints an expression is parsed
to that expression, up to its spans.

Proof: the whole text is an expression of the loosest level, and nothing but
blanks follows it. -/
theorem parse_printed (input : String) (expr : Expr) (printed : PrintsWhole input expr) :
    ∃ got : Expr, Expr.parse input = .ok got ∧ got.erase = expr.erase := by
  obtain ⟨text, gap, shape, blank, prints⟩ := printed
  have ends : Stops inName gap := by
    intro c first
    rw [← Bool.not_eq_true]
    intro inside
    have visible := not_blank_of_inName inside
    rw [blank c (List.mem_of_mem_head? first)] at visible
    cases visible
  have short : text.length < input.toList.length + 1 := by
    rw [shape, List.length_append]
    omega
  have inside := reads_inside _ prints.reads short
  obtain ⟨got, same, read⟩ := inside 0 gap (follows_end blank) (apart_of_stops ends)
  have passed : skipWs ⟨0 + text.length, gap⟩ = ⟨0 + text.length + gap.length, []⟩ := by
    have skipped := skip_gap isAsciiWhitespace (0 + text.length) blank (stops_nil _)
    rwa [List.append_nil] at skipped
  have ended : skipWs ⟨0 + text.length + gap.length, []⟩ = ⟨0 + text.length + gap.length, []⟩ := by
    rw [← passed]
    exact skipWs_idem _
  refine ⟨got, ?_, same⟩
  rw [← shape] at read
  simp only [Expr.parse, read, bind, Except.bind, passed, ended, ne_eq, not_true_eq_false, if_false]

theorem parse_printed_sum :
    PrintsWhole "not a or(b)" (.binary .or (.unary .not (.ident "a" noSpan) noSpan)
      (.ident "b" noSpan) noSpan) ∧
    ∃ got : Expr, Expr.parse "not a or(b)" = .ok got ∧
      got.erase = (Expr.binary .or (.unary .not (.ident "a" noSpan) noSpan)
        (.ident "b" noSpan) noSpan).erase := by
  have printed : PrintsWhole "not a or(b)" (.binary .or (.unary .not (.ident "a" noSpan) noSpan)
      (.ident "b" noSpan) noSpan) := by
    refine ⟨"not a or(b)".toList, [], by simp, gap_nil, ?_⟩
    have a : Prints 8 ([' '] ++ ['a']) (.ident "a" noSpan) :=
      .ident noSpan (by simp [Gap]; decide) ⟨⟨'a', rfl, by decide⟩, by simp; decide⟩ (by decide)
    have b : Prints 8 ([] ++ ['b']) (.ident "b" noSpan) :=
      .ident noSpan gap_nil ⟨⟨'b', rfl, by decide⟩, by simp; decide⟩ (by decide)
    have inner : Prints 8 ([] ++ ("(".toList ++ (([] ++ ['b']) ++ ([] ++ ")".toList)))) _ :=
      .paren ⟨gap_nil, gap_nil⟩ (b.looser (by decide) _ (by decide))
    have blank : Gap [' '] := by simp [Gap]; decide
    have spelledNot : Lexeme.word "not" ∈ UnaryOp.not.spellings := by decide
    have spelledOr : Lexeme.word "or" ∈ BinOp.or.spellings := by decide
    have negated := Prints.unary noSpan spelledNot gap_nil (apart_of_stops (by simp; decide))
      (a.looser (by decide) _ (by decide))
    have whole := Prints.binary noSpan spelledOr blank (apart_of_stops (by simp; decide))
      (apart_of_stops (by simp; decide)) (negated.looser (by decide) _ (by decide))
      (inner.looser (by decide) _ (by decide))
    exact whole.looser (by decide) _ (by decide)
  exact ⟨printed, parse_printed _ _ printed⟩

/-! ## Every expression can be printed -/

/-- The expressions of the language: literals are not negative, identifiers are
names that are not reserved, and a range stands only directly in an index. -/
def Expr.InLanguage (indexed : Bool) : Expr → Prop
  | .int value _ => 0 ≤ value.toInt
  | .bool _ _ => True
  | .ident name _ => IsName name.toList ∧ name ∉ reserved
  | .member base field _ => base.InLanguage false ∧ IsName field.toList
  | .call callee args _ => callee.InLanguage false ∧ ∀ arg ∈ args, arg.InLanguage false
  | .range start stop _ => indexed = true ∧ start.InLanguage false ∧ stop.InLanguage false
  | .index base position _ => base.InLanguage false ∧ position.InLanguage true
  | .unary _ operand _ => operand.InLanguage false
  | .binary _ left right _ => left.InLanguage false ∧ right.InLanguage false

/-- A text in parentheses, after a blank. -/
def wrapped (text : List Char) : List Char :=
  [' '] ++ ("(".toList ++ (text ++ ([] ++ ")".toList)))

theorem Prints.wrap {text : List Char} {e : Expr} {level : Nat} (prints : Prints level text e)
    (small : level ≤ 8) : Prints 8 (wrapped text) e :=
  .paren ⟨by simp [Gap]; decide, gap_nil⟩ (prints.looser small 0 (Nat.zero_le level))

theorem apart_wrapped (left text : List Char) : Apart left (wrapped text) :=
  apart_of_stops (by simp [wrapped]; decide)

/-- Arguments that can be printed can be printed side by side. -/
theorem printable_arguments (args : List Expr) (each : ∀ arg ∈ args, ∃ text, Prints 8 text arg) :
    ∃ printed : List PrintedArg, printed.map PrintedArg.expr = args ∧
      (∀ arg ∈ printed, Gap arg.gap) ∧ ∀ arg ∈ printed, Prints 0 arg.text arg.expr := by
  induction args with
  | nil => exact ⟨[], rfl, by simp, by simp⟩
  | cons arg rest inductionHypothesis =>
    obtain ⟨printed, same, gaps, prints⟩ := inductionHypothesis fun other member =>
      each other (List.mem_cons_of_mem _ member)
    obtain ⟨text, own⟩ := each arg (List.mem_cons_self ..)
    refine ⟨⟨text, [], arg⟩ :: printed, by rw [List.map_cons, same], ?_, ?_⟩
    · intro other member
      rcases List.mem_cons.1 member with rfl | later
      · exact gap_nil
      · exact gaps other later
    · intro other member
      rcases List.mem_cons.1 member with rfl | later
      · exact own.looser (by decide) _ (by decide)
      · exact prints other later

/-- Every expression of the language can be printed where a primary expression
may stand, except that a range in an index is printed as its two bounds. -/
theorem printable (e : Expr) (indexed : Bool) (inLanguage : e.InLanguage indexed) :
    (∃ text, Prints 8 text e) ∨ indexed = true ∧ ∃ lo hi span start stop,
      e = .range lo hi span ∧ Prints 8 start lo ∧ Prints 8 stop hi := by
  have outside : ∀ e' : Expr, sizeOf e' < sizeOf e → e'.InLanguage false →
      ∃ text, Prints 8 text e' := by
    intro e' _ inside
    rcases printable e' false inside with printed | ⟨wrong, _⟩
    · exact printed
    · cases wrong
  cases e with
  | int value span =>
    simp only [Expr.InLanguage] at inLanguage
    exact .inl ⟨_, .int span gap_nil (numeral_toDigits value.toInt.toNat) (by omega)⟩
  | bool value span => exact .inl ⟨_, .bool value span gap_nil⟩
  | ident name span =>
    simp only [Expr.InLanguage] at inLanguage
    have prints := Prints.ident span gap_nil inLanguage.1 (by simpa using inLanguage.2)
    rw [String.ofList_toList] at prints
    exact .inl ⟨_, prints⟩
  | member base field span =>
    simp only [Expr.InLanguage] at inLanguage
    obtain ⟨text, own⟩ := outside base (by simp; omega) inLanguage.1
    have prints := Prints.member span ⟨gap_nil, gap_nil⟩ inLanguage.2
      (own.looser (by decide) 7 (by decide))
    rw [String.ofList_toList] at prints
    exact .inl ⟨_, prints.wrap (by decide)⟩
  | call callee args span =>
    simp only [Expr.InLanguage] at inLanguage
    obtain ⟨text, own⟩ := outside callee (by simp; omega) inLanguage.1
    obtain ⟨printed, rfl, gaps, each⟩ := printable_arguments args fun arg member =>
      outside arg (by have smaller := List.sizeOf_lt_of_mem member; simp; omega)
        (inLanguage.2 arg member)
    exact .inl ⟨_, (Prints.call span printed ⟨gap_nil, gap_nil⟩ gaps
      (own.looser (by decide) _ (by decide)) each).wrap (by decide)⟩
  | range start stop span =>
    simp only [Expr.InLanguage] at inLanguage
    obtain ⟨first, startPrints⟩ := outside start (by simp; omega) inLanguage.2.1
    obtain ⟨last, stopPrints⟩ := outside stop (by simp; omega) inLanguage.2.2
    exact .inr ⟨inLanguage.1, start, stop, span, first, last, rfl, startPrints, stopPrints⟩
  | index base position span =>
    simp only [Expr.InLanguage] at inLanguage
    obtain ⟨text, own⟩ := outside base (by simp; omega) inLanguage.1
    have basePrints := own.looser (by decide) 7 (by decide)
    rcases printable position true inLanguage.2 with
      ⟨inside, prints⟩ | ⟨_, lo, hi, inner, first, last, rfl, startPrints, stopPrints⟩
    · exact .inl ⟨_, (Prints.index span ⟨gap_nil, gap_nil⟩ basePrints
        (prints.looser (by decide) _ (by decide))).wrap (by decide)⟩
    · exact .inl ⟨_, (Prints.indexRange span inner ⟨gap_nil, gap_nil, gap_nil⟩ basePrints
        (startPrints.looser (by decide) _ (by decide))
        (stopPrints.looser (by decide) _ (by decide))).wrap (by decide)⟩
  | unary op operand span =>
    simp only [Expr.InLanguage] at inLanguage
    obtain ⟨text, own⟩ := outside operand (by simp; omega) inLanguage
    obtain ⟨lexeme, spelled⟩ : ∃ lexeme, lexeme ∈ op.spellings := by
      cases op <;> exact ⟨_, List.mem_cons_self ..⟩
    exact .inl ⟨_, (Prints.unary span spelled gap_nil (apart_wrapped _ text)
      ((own.wrap (by decide)).looser (by decide) _ (by decide))).wrap (by decide)⟩
  | binary op left right span =>
    simp only [Expr.InLanguage] at inLanguage
    obtain ⟨first, leftPrints⟩ := outside left (by simp; omega) inLanguage.1
    obtain ⟨last, rightPrints⟩ := outside right (by simp; omega) inLanguage.2
    obtain ⟨lexeme, spelled⟩ : ∃ lexeme, lexeme ∈ op.spellings := by
      cases op <;> exact ⟨_, List.mem_cons_self ..⟩
    have blank : Gap [' '] := by simp [Gap]; decide
    have apart : Apart first ([' '] ++ lexeme.text.toList) := apart_of_stops (by simp; decide)
    have low : op.level + 1 ≤ 8 := by cases op <;> decide
    exact .inl ⟨_, (Prints.binary span spelled blank apart (apart_wrapped _ last)
      (leftPrints.looser (by decide) _ (by omega))
      ((rightPrints.wrap (by decide)).looser (by decide) _ low)).wrap (by omega)⟩
termination_by sizeOf e

/-- Every expression of the language has a text that prints it. -/
theorem exists_printed (e : Expr) (inLanguage : e.InLanguage false) :
    ∃ input, PrintsWhole input e := by
  rcases printable e false inLanguage with ⟨text, prints⟩ | ⟨wrong, _⟩
  · exact ⟨String.ofList text, text, [], by simp, gap_nil,
      prints.looser (by decide) _ (by decide)⟩
  · cases wrong

end Semasm.Contract
