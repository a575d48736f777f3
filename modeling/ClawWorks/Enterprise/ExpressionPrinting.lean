import ClawWorks.Enterprise.ExpressionParser

/-!
# Printing expressions

`printAt` prints an expression with the brackets its level requires and no others.
-/

namespace ClawWorks

open List

variable {ν : Type}

/-- How tight a level binds. -/
def Level.rank : Level → Nat
  | .ternary => 0
  | .binary tier => tier + 1
  | .unary => 8
  | .primary => 9

open Level

/-- There are six tiers, and the level of the prefix operators over them. -/
def Level.Valid : Level → Prop
  | .binary tier => tier ≤ BINARY_TIERS.length
  | _ => True

section Levels

variable {e : ExpressionNode ν} {tokens : List (Token ν)}

theorem Prints.binary_of_le {tier tier' : Nat} (h : Prints (.binary tier) e tokens) (hle : tier' ≤ tier)
    (htier : tier ≤ BINARY_TIERS.length) : Prints (.binary tier') e tokens := by
  obtain ⟨k, rfl⟩ := Nat.exists_eq_add_of_le hle
  induction k with
  | zero => exact h
  | succ k ih => exact ih (.ofTier (by omega) h) (by omega) (by omega)

theorem Prints.of_rank_le {level looser : Level} (h : Prints level e tokens) (hlevel : level.Valid)
    (hlooser : looser.Valid) (hrank : looser.rank ≤ level.rank) : Prints looser e tokens := by
  have hlength : BINARY_TIERS.length = 6 := rfl
  have hunary : Prints .unary e tokens → ∀ tier ≤ BINARY_TIERS.length, Prints (.binary tier) e tokens :=
    fun h tier htier => (Prints.ofUnary h).binary_of_le htier le_rfl
  cases level with
  | ternary =>
    cases looser with
    | ternary => exact h
    | binary | unary | primary => exact absurd hrank (by simp [rank])
  | binary tier =>
    simp only [Level.Valid] at hlevel
    cases looser with
    | ternary => exact .ofBinary (h.binary_of_le (Nat.zero_le _) hlevel)
    | binary tier' => exact h.binary_of_le (by simpa [rank] using hrank) hlevel
    | unary | primary => simp only [rank] at hrank; omega
  | unary =>
    cases looser with
    | ternary => exact .ofBinary (hunary h 0 (Nat.zero_le _))
    | binary tier => exact hunary h tier hlooser
    | unary => exact h
    | primary => exact absurd hrank (by simp [rank])
  | primary =>
    cases looser with
    | ternary => exact .ofBinary (hunary (.ofPrimary h) 0 (Nat.zero_le _))
    | binary tier => exact hunary (.ofPrimary h) tier hlooser
    | unary => exact .ofPrimary h
    | primary => exact h

end Levels

def bracketed (needed : Bool) (tokens : List (Token ν)) : List (Token ν) :=
  if needed then .punct .leftParen :: (tokens ++ [.punct .rightParen]) else tokens

def literalToken : OntologyLiteral ν → Token ν
  | .string value => .string value
  | .number value => .number value
  | .boolean value => .name (if value then js "true" else js "false")
  | .null => .name (js "null")

/-- Print an expression at a level, with the brackets it requires: around an operand that binds looser than its
place. -/
def printAt : Level → ExpressionNode ν → List (Token ν)
  | _, .literal value => [literalToken value]
  | _, .property id => [.property id]
  | level, .unary op operand => bracketed (Level.unary.rank < level.rank) (.punct op.punct :: printAt .unary operand)
  | level, .binary op left right =>
    bracketed ((Level.binary op.tier).rank < level.rank)
      (printAt (.binary op.tier) left ++ .punct (.binary op) :: printAt (.binary (op.tier + 1)) right)
  | level, .ternary condition whenTrue whenFalse =>
    bracketed (Level.ternary.rank < level.rank) (printAt (.binary 0) condition ++
        .punct .question :: (printAt .ternary whenTrue ++ .punct .colon :: printAt .ternary whenFalse))
  | _, .call name arg => .name name.text :: .punct .leftParen :: (printAt .ternary arg ++ [.punct .rightParen])
  | _, .call₂ name first second =>
    .name name.text :: .punct .leftParen ::
      (printAt .ternary first ++ .punct .comma :: (printAt .ternary second ++ [.punct .rightParen]))

theorem prints_bracketed {own level : Level} {e : ExpressionNode ν} {tokens : List (Token ν)}
    (h : Prints own e tokens) (hown : own.Valid) (hlevel : level.Valid) :
    Prints level e (bracketed (own.rank < level.rank) tokens) := by
  have hlength : BINARY_TIERS.length = 6 := rfl
  by_cases hneeded : own.rank < level.rank
  · have hbrackets : Prints .primary e (.punct .leftParen :: (tokens ++ [.punct .rightParen])) :=
      .parens (h.of_rank_le hown trivial (Nat.zero_le _))
    rw [bracketed, if_pos (decide_eq_true hneeded)]
    refine hbrackets.of_rank_le trivial hlevel ?_
    cases level with
    | binary tier =>
      simp only [Level.Valid] at hlevel
      simp only [rank]
      omega
    | _ => simp [rank]
  · rw [bracketed, if_neg (by simpa using hneeded)]
    exact h.of_rank_le hown hlevel (Nat.le_of_not_lt hneeded)

theorem prints_printAt (e : ExpressionNode ν) : ∀ {level : Level}, level.Valid → Prints level e (printAt level e) := by
  have hprimary : ∀ {e : ExpressionNode ν} {tokens : List (Token ν)} {level : Level}, level.Valid →
      Prints .primary e tokens → Prints level e tokens := by
    intro e tokens level hlevel h
    refine h.of_rank_le trivial hlevel ?_
    cases level with
    | binary tier =>
      have hlength : BINARY_TIERS.length = 6 := rfl
      simp only [Level.Valid] at hlevel
      simp only [rank]
      omega
    | _ => simp [rank]
  induction e with
  | literal value =>
    intro level hlevel
    refine hprimary hlevel ?_
    cases value with
    | string value => exact .string value
    | number value => exact .number value
    | boolean value => exact .boolean value
    | null => exact .null
  | property id => exact fun hlevel => hprimary hlevel (.property id)
  | unary op operand ih => exact fun hlevel => prints_bracketed (.unary op (ih trivial)) trivial hlevel
  | binary op left right ihl ihr =>
    exact fun hlevel => prints_bracketed (.binary op (ihl op.tier_lt.le) (ihr op.tier_lt)) op.tier_lt.le hlevel
  | ternary condition whenTrue whenFalse ihc iht ihf =>
    exact fun hlevel => prints_bracketed (.ternary (ihc (Nat.zero_le _)) (iht trivial) (ihf trivial)) trivial hlevel
  | call name arg ih => exact fun hlevel => hprimary hlevel (.call name (ih trivial))
  | call₂ name first second ihf ihs => exact fun hlevel => hprimary hlevel (.call₂ name (ihf trivial) (ihs trivial))

/-! ## The expressions of the language -/

section Language

variable [JsNumberSyntax ν]

/-- An expression that can be written: its numbers are finite and have digits, its strings lack a kind of quote, and its
properties have ids. -/
def Expressible : ExpressionNode ν → Prop
  | .literal (.number value) => ∃ text, Spelling (.number value) text
  | .literal (.string value) => QUOTE ∉ value ∨ DOUBLE_QUOTE ∉ value
  | .literal _ => True
  | .property id => isEnterpriseId id = true
  | .unary _ operand => Expressible operand
  | .binary _ left right => Expressible left ∧ Expressible right
  | .ternary condition whenTrue whenFalse => Expressible condition ∧ Expressible whenTrue ∧ Expressible whenFalse
  | .call _ arg => Expressible arg
  | .call₂ _ first second => Expressible first ∧ Expressible second

/-- A token that can be written. -/
def Spellable (token : Token ν) : Prop :=
  ∃ text, Spelling token text

theorem spellable_punct (punct : Punct) : Spellable (.punct punct : Token ν) := ⟨_, .punct punct⟩

theorem spellable_name {value : JsString}
    (h : (value.head?.any isLowerLetter && value.all isNameChar) = true) : Spellable (.name value : Token ν) := by
  rw [Bool.and_eq_true, all_eq_true] at h
  cases value with
  | nil => cases h.1
  | cons char chars => exact ⟨_, .name h.1 fun u hu => h.2 u (mem_cons_of_mem _ hu)⟩

theorem spellable_literal {value : OntologyLiteral ν} (h : Expressible (.literal value)) :
    Spellable (literalToken value) := by
  cases value with
  | string value =>
    rcases h with hquote | hquote
    · exact ⟨_, .string (Or.inl rfl) hquote⟩
    · exact ⟨_, .string (Or.inr rfl) hquote⟩
  | number value => exact h
  | boolean value => cases value <;> exact spellable_name (by decide)
  | null => exact spellable_name (by decide)

theorem spellable_bracketed (needed : Bool) {tokens : List (Token ν)} (h : ∀ token ∈ tokens, Spellable token) :
    ∀ token ∈ bracketed needed tokens, Spellable token := by
  cases needed with
  | false => exact h
  | true =>
    intro token htoken
    rcases mem_cons.mp htoken with rfl | hmem
    · exact spellable_punct _
    rcases mem_append.mp hmem with hmem | hmem
    · exact h token hmem
    · obtain rfl := mem_singleton.mp hmem
      exact spellable_punct _

theorem spellable_printAt {e : ExpressionNode ν} (h : Expressible e) :
    ∀ {level : Level}, ∀ token ∈ printAt level e, Spellable token := by
  induction e with
  | literal value =>
    intro level token htoken
    obtain rfl := mem_singleton.mp htoken
    exact spellable_literal h
  | property id =>
    intro level token htoken
    obtain rfl := mem_singleton.mp htoken
    exact ⟨_, .property h⟩
  | unary op operand ih =>
    intro level
    refine spellable_bracketed _ fun token htoken => ?_
    rcases mem_cons.mp htoken with rfl | hmem
    · exact spellable_punct _
    · exact ih h token hmem
  | binary op left right ihl ihr =>
    intro level
    refine spellable_bracketed _ fun token htoken => ?_
    rcases mem_append.mp htoken with hmem | hmem
    · exact ihl h.1 token hmem
    rcases mem_cons.mp hmem with rfl | hmem
    · exact spellable_punct _
    · exact ihr h.2 token hmem
  | ternary condition whenTrue whenFalse ihc iht ihf =>
    intro level
    refine spellable_bracketed _ fun token htoken => ?_
    rcases mem_append.mp htoken with hmem | hmem
    · exact ihc h.1 token hmem
    rcases mem_cons.mp hmem with rfl | hmem
    · exact spellable_punct _
    rcases mem_append.mp hmem with hmem | hmem
    · exact iht h.2.1 token hmem
    rcases mem_cons.mp hmem with rfl | hmem
    · exact spellable_punct _
    · exact ihf h.2.2 token hmem
  | call name arg ih =>
    intro level token htoken
    rcases mem_cons.mp htoken with rfl | hmem
    · exact spellable_name (by cases name <;> decide)
    · exact spellable_bracketed true (ih h) token hmem
  | call₂ name first second ihf ihs =>
    intro level token htoken
    rcases mem_cons.mp htoken with rfl | hmem
    · exact spellable_name (by cases name <;> decide)
    have hargs : token ∈ bracketed true (printAt .ternary first ++ .punct .comma :: printAt .ternary second) := by
      simpa [bracketed] using hmem
    refine spellable_bracketed true (fun token htoken => ?_) token hargs
    rcases mem_append.mp htoken with hmem | hmem
    · exact ihf h.1 token hmem
    rcases mem_cons.mp hmem with rfl | hmem
    · exact spellable_punct _
    · exact ihs h.2 token hmem

theorem exists_spaced {tokens : List (Token ν)} (h : ∀ token ∈ tokens, Spellable token) :
    ∃ source, Spaced tokens source := by
  induction tokens with
  | nil => exact ⟨[], .nil⟩
  | cons token tokens ih =>
    obtain ⟨text, htext⟩ := h token mem_cons_self
    obtain ⟨source, hsource⟩ := ih fun token htoken => h token (mem_cons_of_mem _ htoken)
    exact ⟨_, .cons htext hsource⟩

theorem trim_ne_nil_of_spaced {tokens : List (Token ν)} {source : JsString} (h : Spaced tokens source)
    (hne : tokens ≠ []) : trim source ≠ [] := by
  cases h with
  | nil => exact absurd rfl hne
  | cons hspelling _ =>
    obtain ⟨char, rest, rfl⟩ := exists_cons_of_ne_nil hspelling.ne_nil
    have hchar := not_isWhiteSpace_of_spelling hspelling rfl
    rw [trim, cons_append, dropWhile_cons_of_neg (by simp [hchar]), Ne, rdropWhile_eq_nil_iff]
    intro hblank
    have hspace := hblank char mem_cons_self
    rw [hchar] at hspace
    cases hspace

theorem parseOntologyExpression_of_prints {e : ExpressionNode ν} {tokens : List (Token ν)} {source : JsString}
    (h : Prints .ternary e tokens) (hsource : Spaced tokens source) : parseOntologyExpression source = .ok e := by
  have hblank : (trim source).isEmpty = false := by
    simpa using trim_ne_nil_of_spaced hsource h.ne_nil
  rw [parseOntologyExpression, hblank, if_neg Bool.false_ne_true, tokenize_of_spaced hsource]
  exact parse_of_prints h

/-- **The parser accepts its grammar and respects it.** Every expression of the language can be written with the
brackets it requires, and is parsed from that text; and an accepted source spells, with white space anywhere between
them, tokens that print what was parsed, each of them. -/
theorem parseOntologyExpression_exact :
    (∀ e : ExpressionNode ν, Expressible e → ∃ source, Spaced (printAt .ternary e) source) ∧
      (∀ (e : ExpressionNode ν) (source : JsString), Spaced (printAt .ternary e) source →
        parseOntologyExpression source = .ok e) ∧
      ∀ (e : ExpressionNode ν) (source : JsString), parseOntologyExpression source = .ok e →
        ∃ tokens, Spells tokens source ∧ Prints .ternary e tokens := by
  refine ⟨fun e h => exists_spaced (spellable_printAt h), fun e source hsource => ?_, fun e source h => ?_⟩
  · exact parseOntologyExpression_of_prints (prints_printAt e trivial) hsource
  · unfold parseOntologyExpression at h
    split at h
    · cases h
    · obtain ⟨tokens, htokens, hparse⟩ := Except.bind_eq_ok.mp h
      exact ⟨tokens, spells_of_tokenize htokens, prints_of_parse hparse⟩

end Language

end ClawWorks
