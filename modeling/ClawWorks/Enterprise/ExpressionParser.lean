import ClawWorks.Enterprise.ExpressionTokens
import ClawWorks.Lib.Outcome

/-!
# Parsing expressions

A recursive descent, lowest precedence first: a ternary, six tiers of binary operators, the prefix operators, a primary.
`Prints` is the grammar it parses by, with a level for each of these.
-/

namespace ClawWorks

open Except List Nat

variable {ν : Type}

def BINARY_TIERS : List (List BinaryOp) :=
  [[.or], [.and], [.eq, .ne], [.lt, .le, .gt, .ge], [.add, .sub], [.mul, .div, .rem]]

def BinaryOp.tier : BinaryOp → Nat
  | .or => 0
  | .and => 1
  | .eq => 2
  | .ne => 2
  | .lt => 3
  | .le => 3
  | .gt => 3
  | .ge => 3
  | .add => 4
  | .sub => 4
  | .mul => 5
  | .div => 5
  | .rem => 5

def tierOperator (ops : List BinaryOp) (token : Punct) : Option BinaryOp :=
  ops.find? (.binary · = token)

def UnaryOp.punct : UnaryOp → Punct
  | .neg => .binary .sub
  | .not => .not

inductive CallName
  | unary (name : UnaryCall)
  | binary (name : BinaryCall)

def CallName.text : CallName → JsString
  | .unary name => name.text
  | .binary name => name.text

/-- The helpers, as messages list them. -/
def CALLS : List CallName :=
  [.unary .abs, .unary .ceil, .binary .coalesce, .unary .floor, .unary .length, .unary .lower, .binary .max,
    .binary .min, .unary .round, .unary .upper]

def CallName.arity : CallName → Nat
  | .unary _ => 1
  | .binary _ => 2

/-- `isCallName`, with the helper it finds. -/
def callNamed (name : JsString) : Option CallName :=
  CALLS.find? (·.text = name)

/-- A call, when it has as many arguments as its helper takes. -/
def buildCall : CallName → List (ExpressionNode ν) → Option (ExpressionNode ν)
  | .unary name, [arg] => some (.call name arg)
  | .binary name, [first, second] => some (.call₂ name first second)
  | _, _ => none

/-! ## The parser -/

mutual

/-- A condition with its two branches, or a binary expression. The fuel bounds the depth of the descent. -/
def parseTernary : Nat → List (Token ν) → Except JsString (ExpressionNode ν × List (Token ν))
  | 0, _ => .error []
  | fuel + 1, tokens => do
    let (condition, tokens) ← parseBinary fuel 0 tokens
    match tokens with
    | .punct .question :: tokens => do
      let (whenTrue, tokens) ← parseTernary fuel tokens
      match tokens with
      | .punct .colon :: tokens => do
        let (whenFalse, tokens) ← parseTernary fuel tokens
        return (.ternary condition whenTrue whenFalse, tokens)
      | _ => .error (js "expected \":\" to complete the \"? :\" expression")
    | tokens => return (condition, tokens)

/-- The operators of a tier, over what binds tighter. -/
def parseBinary : Nat → Nat → List (Token ν) → Except JsString (ExpressionNode ν × List (Token ν))
  | 0, _, _ => .error []
  | fuel + 1, tier, tokens =>
    match BINARY_TIERS[tier]? with
    | none => parseUnary fuel tokens
    | some ops => do
      let (left, tokens) ← parseBinary fuel (tier + 1) tokens
      parseOperators fuel tier ops left tokens

def parseOperators : Nat → Nat → List BinaryOp → ExpressionNode ν → List (Token ν) →
    Except JsString (ExpressionNode ν × List (Token ν))
  | 0, _, _, _, _ => .error []
  | fuel + 1, tier, ops, left, tokens =>
    match tokens with
    | .punct punct :: rest =>
      match tierOperator ops punct with
      | none => .ok (left, .punct punct :: rest)
      | some op => do
        let (right, tokens) ← parseBinary fuel (tier + 1) rest
        parseOperators fuel tier ops (.binary op left right) tokens
    | tokens => .ok (left, tokens)

def parseUnary : Nat → List (Token ν) → Except JsString (ExpressionNode ν × List (Token ν))
  | 0, _ => .error []
  | fuel + 1, tokens =>
    match tokens with
    | .punct (.binary .sub) :: tokens => do
      let (operand, tokens) ← parseUnary fuel tokens
      return (.unary .neg operand, tokens)
    | .punct .not :: tokens => do
      let (operand, tokens) ← parseUnary fuel tokens
      return (.unary .not operand, tokens)
    | tokens => parsePrimary fuel tokens

def parsePrimary : Nat → List (Token ν) → Except JsString (ExpressionNode ν × List (Token ν))
  | 0, _ => .error []
  | fuel + 1, tokens =>
    match tokens with
    | .punct .leftParen :: tokens => do
      let (inner, tokens) ← parseTernary fuel tokens
      match tokens with
      | .punct .rightParen :: tokens => return (inner, tokens)
      | _ => .error (js "expected \")\"")
    | .number value :: tokens => .ok (.literal (.number value), tokens)
    | .string value :: tokens => .ok (.literal (.string value), tokens)
    | .property id :: tokens => .ok (.property id, tokens)
    | .name value :: tokens =>
      if value = js "true" ∨ value = js "false" then .ok (.literal (.boolean (value = js "true")), tokens)
      else if value = js "null" then .ok (.literal .null, tokens)
      else parseCall fuel value tokens
    | _ => .error (js "expected a value")

def parseCall : Nat → JsString → List (Token ν) → Except JsString (ExpressionNode ν × List (Token ν))
  | 0, _, _ => .error []
  | fuel + 1, name, tokens =>
    match callNamed name with
    | none => .error (js "unknown function " ++ quoted name ++ js "; available: " ++ joinNames (CALLS.map (·.text)))
    | some call =>
      match tokens with
      | .punct .leftParen :: tokens => do
        let (args, tokens) ← parseArgs fuel name tokens
        match buildCall call args with
        | some node => return (node, tokens)
        | none => .error (quoted name ++ js " takes " ++ decimal call.arity ++ js " argument(s), got " ++
            decimal args.length)
      | _ => .error (js "expected \"(\" after " ++ quoted name)

/-- The arguments up to the closing bracket. -/
def parseArgs : Nat → JsString → List (Token ν) → Except JsString (List (ExpressionNode ν) × List (Token ν))
  | 0, _, _ => .error []
  | fuel + 1, name, tokens =>
    match tokens with
    | .punct .rightParen :: tokens => return ([], tokens)
    | tokens => parseArgList fuel name tokens

/-- One argument or more, with commas between them. -/
def parseArgList : Nat → JsString → List (Token ν) → Except JsString (List (ExpressionNode ν) × List (Token ν))
  | 0, _, _ => .error []
  | fuel + 1, name, tokens => do
    let (arg, tokens) ← parseTernary fuel tokens
    match tokens with
    | .punct .comma :: tokens => do
      let (args, tokens) ← parseArgList fuel name tokens
      return (arg :: args, tokens)
    | .punct .rightParen :: tokens => return ([arg], tokens)
    | _ => .error (js "expected \")\" to close \"" ++ name ++ js "(\"")

end

/-- More than the descent can need: it goes through ten levels for each token. -/
def parseFuel (tokens : List (Token ν)) : Nat :=
  24 * tokens.length + 24

def parse (tokens : List (Token ν)) : Except JsString (ExpressionNode ν) := do
  let (node, rest) ← parseTernary (parseFuel tokens) tokens
  match rest with
  | [] => return node
  | _ => .error (js "unexpected trailing input")

def parseOntologyExpression [JsNumberSyntax ν] (source : JsString) : Except JsString (ExpressionNode ν) :=
  if (trim source).isEmpty then .error (js "expression must not be blank")
  else do
    let tokens ← tokenize source
    parse tokens

/-- What an expression can stand as: an operand of a ternary, of a tier (the sixth is that of the prefix operators),
of a prefix operator, or a primary. -/
inductive Level
  | ternary
  | binary (tier : Nat)
  | unary
  | primary

/-- The tokens that print an expression at a level. The operators of a tier lean to the left, a ternary to the right;
brackets may stand around any expression and have to stand around one that binds looser than its level. -/
inductive Prints : Level → ExpressionNode ν → List (Token ν) → Prop
  | ternary {c t f : ExpressionNode ν} {cs ts fs : List (Token ν)} :
      Prints (.binary 0) c cs → Prints .ternary t ts → Prints .ternary f fs →
      Prints .ternary (.ternary c t f) (cs ++ .punct .question :: (ts ++ .punct .colon :: fs))
  | binary (op : BinaryOp) {l r : ExpressionNode ν} {ls rs : List (Token ν)} :
      Prints (.binary op.tier) l ls → Prints (.binary (op.tier + 1)) r rs →
      Prints (.binary op.tier) (.binary op l r) (ls ++ .punct (.binary op) :: rs)
  | unary (op : UnaryOp) {e : ExpressionNode ν} {ts : List (Token ν)} :
      Prints .unary e ts → Prints .unary (.unary op e) (.punct op.punct :: ts)
  | number (value : ν) : Prints .primary (.literal (.number value)) [.number value]
  | string (value : JsString) : Prints .primary (.literal (.string value)) [.string value]
  | boolean (value : Bool) :
      Prints .primary (.literal (.boolean value)) [.name (if value then js "true" else js "false")]
  | null : Prints .primary (.literal .null) [.name (js "null")]
  | property (id : EnterpriseId) : Prints .primary (.property id) [.property id]
  | call (name : UnaryCall) {e : ExpressionNode ν} {ts : List (Token ν)} : Prints .ternary e ts →
      Prints .primary (.call name e) (.name name.text :: .punct .leftParen :: (ts ++ [.punct .rightParen]))
  | call₂ (name : BinaryCall) {e₁ e₂ : ExpressionNode ν} {ts₁ ts₂ : List (Token ν)} :
      Prints .ternary e₁ ts₁ → Prints .ternary e₂ ts₂ →
      Prints .primary (.call₂ name e₁ e₂)
        (.name name.text :: .punct .leftParen :: (ts₁ ++ .punct .comma :: (ts₂ ++ [.punct .rightParen])))
  | parens {e : ExpressionNode ν} {ts : List (Token ν)} : Prints .ternary e ts →
      Prints .primary e (.punct .leftParen :: (ts ++ [.punct .rightParen]))
  | ofBinary {e : ExpressionNode ν} {ts : List (Token ν)} : Prints (.binary 0) e ts → Prints .ternary e ts
  | ofTier {tier : Nat} {e : ExpressionNode ν} {ts : List (Token ν)} : tier < BINARY_TIERS.length →
      Prints (.binary (tier + 1)) e ts → Prints (.binary tier) e ts
  | ofUnary {e : ExpressionNode ν} {ts : List (Token ν)} : Prints .unary e ts →
      Prints (.binary BINARY_TIERS.length) e ts
  | ofPrimary {e : ExpressionNode ν} {ts : List (Token ν)} : Prints .primary e ts → Prints .unary e ts

/-- The arguments of a call up to its closing bracket. -/
inductive PrintsArgs : List (ExpressionNode ν) → List (Token ν) → Prop
  | last {e : ExpressionNode ν} {ts : List (Token ν)} :
    Prints .ternary e ts → PrintsArgs [e] (ts ++ [.punct .rightParen])
  | more {e : ExpressionNode ν} {es : List (ExpressionNode ν)} {ts us : List (Token ν)} : Prints .ternary e ts →
      PrintsArgs es us → PrintsArgs (e :: es) (ts ++ .punct .comma :: us)

/-! ## What is parsed is printed by the tokens read -/

def Reads (prints : List (Token ν) → Prop) (tokens rest : List (Token ν)) : Prop :=
  ∃ used, tokens = used ++ rest ∧ prints used

structure ReadsWithin (ν : Type) (fuel : Nat) : Prop where
  ternary : ∀ {tokens rest : List (Token ν)} {e}, parseTernary fuel tokens = .ok (e, rest) →
    Reads (Prints .ternary e) tokens rest
  binary : ∀ {tokens rest : List (Token ν)} {tier e}, tier ≤ BINARY_TIERS.length →
    parseBinary fuel tier tokens = .ok (e, rest) → Reads (Prints (.binary tier) e) tokens rest
  operators : ∀ {tokens rest before : List (Token ν)} {tier ops left e}, BINARY_TIERS[tier]? = some ops →
    Prints (.binary tier) left before → parseOperators fuel tier ops left tokens = .ok (e, rest) →
    Reads (fun used => Prints (.binary tier) e (before ++ used)) tokens rest
  unary : ∀ {tokens rest : List (Token ν)} {e}, parseUnary fuel tokens = .ok (e, rest) →
    Reads (Prints .unary e) tokens rest
  primary : ∀ {tokens rest : List (Token ν)} {e}, parsePrimary fuel tokens = .ok (e, rest) →
    Reads (Prints .primary e) tokens rest
  call : ∀ {tokens rest : List (Token ν)} {name e}, parseCall fuel name tokens = .ok (e, rest) →
    Reads (fun used => Prints .primary e (.name name :: used)) tokens rest
  args : ∀ {tokens rest : List (Token ν)} {name args}, parseArgs fuel name tokens = .ok (args, rest) → args ≠ [] →
    Reads (PrintsArgs args) tokens rest
  argList : ∀ {tokens rest : List (Token ν)} {name args}, parseArgList fuel name tokens = .ok (args, rest) →
    Reads (PrintsArgs args) tokens rest

section Reading

variable {fuel : Nat} {tokens rest : List (Token ν)} {e : ExpressionNode ν} {ops : List BinaryOp}

theorem tierOperator_some {tier : Nat} (h : BINARY_TIERS[tier]? = some ops) {token : Punct}
    {op : BinaryOp} (hop : tierOperator ops token = some op) : op.tier = tier ∧ token = .binary op := by
  have htoken : Punct.binary op = token := by
    have hfound := find?_some hop
    simpa using hfound
  refine ⟨?_, htoken.symm⟩
  have hmem := mem_of_find?_eq_some hop
  have htiers : ∀ entry ∈ BINARY_TIERS.zipIdx, ∀ op ∈ entry.1, op.tier = entry.2 := by decide
  exact htiers (ops, tier) (mem_zipIdx_iff_getElem?.mpr h) op hmem

section

variable (h : ReadsWithin ν fuel)

include h

theorem parseTernary_reads (hparse : parseTernary (fuel + 1) tokens = .ok (e, rest)) :
    Reads (Prints .ternary e) tokens rest := by
  unfold parseTernary at hparse
  obtain ⟨⟨condition, tokens₁⟩, hcondition, hnext⟩ := bind_eq_ok.mp hparse
  obtain ⟨cs, rfl, hcs⟩ := h.binary (zero_le _) hcondition
  dsimp only at hnext
  split at hnext
  · obtain ⟨⟨whenTrue, tokens₂⟩, htrue, hafter⟩ := bind_eq_ok.mp hnext
    obtain ⟨ts, rfl, hts⟩ := h.ternary htrue
    dsimp only at hafter
    split at hafter
    · obtain ⟨⟨whenFalse, tokens₃⟩, hfalse, hlast⟩ := bind_eq_ok.mp hafter
      obtain ⟨fs, rfl, hfs⟩ := h.ternary hfalse
      cases hlast
      refine ⟨_, ?_, .ternary hcs hts hfs⟩
      simp only [append_assoc, cons_append]
    · cases hafter
  · cases hnext
    exact ⟨cs, rfl, .ofBinary hcs⟩

theorem parseBinary_reads {tier : Nat} (htier : tier ≤ BINARY_TIERS.length)
    (hparse : parseBinary (fuel + 1) tier tokens = .ok (e, rest)) : Reads (Prints (.binary tier) e) tokens rest := by
  unfold parseBinary at hparse
  cases hops : BINARY_TIERS[tier]? with
  | none =>
    rw [hops] at hparse
    obtain ⟨used, rfl, hused⟩ := h.unary hparse
    obtain rfl := le_antisymm htier (getElem?_eq_none_iff.mp hops)
    exact ⟨used, rfl, .ofUnary hused⟩
  | some ops =>
    rw [hops] at hparse
    have hlt := (List.getElem?_eq_some_iff.mp hops).1
    obtain ⟨⟨left, tokens₁⟩, hleft, hnext⟩ := bind_eq_ok.mp hparse
    obtain ⟨ls, rfl, hls⟩ := h.binary hlt hleft
    obtain ⟨used, rfl, hused⟩ := h.operators hops (.ofTier hlt hls) hnext
    exact ⟨ls ++ used, (append_assoc _ _ _).symm, hused⟩

theorem parseOperators_reads {tier : Nat} {left : ExpressionNode ν}
    {before : List (Token ν)} (hops : BINARY_TIERS[tier]? = some ops) (hbefore : Prints (.binary tier) left before)
    (hparse : parseOperators (fuel + 1) tier ops left tokens = .ok (e, rest)) :
    Reads (fun used => Prints (.binary tier) e (before ++ used)) tokens rest := by
  unfold parseOperators at hparse
  split at hparse
  · split at hparse
    · cases hparse
      exact ⟨[], rfl, by simpa using hbefore⟩
    · rename_i op hop
      obtain ⟨rfl, rfl⟩ := tierOperator_some hops hop
      have hlt := (List.getElem?_eq_some_iff.mp hops).1
      obtain ⟨⟨right, tokens₁⟩, hright, hnext⟩ := bind_eq_ok.mp hparse
      obtain ⟨rs, rfl, hrs⟩ := h.binary hlt hright
      obtain ⟨used, rfl, hused⟩ := h.operators hops (.binary op hbefore hrs) hnext
      refine ⟨.punct (.binary op) :: (rs ++ used), by rw [cons_append, append_assoc], ?_⟩
      rwa [append_assoc, cons_append] at hused
  · cases hparse
    exact ⟨[], rfl, by simpa using hbefore⟩

theorem parseUnary_reads (hparse : parseUnary (fuel + 1) tokens = .ok (e, rest)) :
    Reads (Prints .unary e) tokens rest := by
  unfold parseUnary at hparse
  split at hparse
  · obtain ⟨⟨operand, tokens₁⟩, hoperand, hnext⟩ := bind_eq_ok.mp hparse
    obtain ⟨used, rfl, hused⟩ := h.unary hoperand
    cases hnext
    exact ⟨_, rfl, .unary .neg hused⟩
  · obtain ⟨⟨operand, tokens₁⟩, hoperand, hnext⟩ := bind_eq_ok.mp hparse
    obtain ⟨used, rfl, hused⟩ := h.unary hoperand
    cases hnext
    exact ⟨_, rfl, .unary .not hused⟩
  · obtain ⟨used, rfl, hused⟩ := h.primary hparse
    exact ⟨used, rfl, .ofPrimary hused⟩

theorem parsePrimary_reads (hparse : parsePrimary (fuel + 1) tokens = .ok (e, rest)) :
    Reads (Prints .primary e) tokens rest := by
  unfold parsePrimary at hparse
  split at hparse
  · obtain ⟨⟨inner, tokens₁⟩, hinner, hnext⟩ := bind_eq_ok.mp hparse
    obtain ⟨used, rfl, hused⟩ := h.ternary hinner
    dsimp only at hnext
    split at hnext
    · cases hnext
      refine ⟨_, ?_, .parens hused⟩
      simp only [append_assoc, cons_append, nil_append]
    · cases hnext
  · cases hparse
    exact ⟨[_], rfl, .number _⟩
  · cases hparse
    exact ⟨[_], rfl, .string _⟩
  · cases hparse
    exact ⟨[_], rfl, .property _⟩
  · split at hparse
    · rename_i hname
      cases hparse
      refine ⟨[_], rfl, ?_⟩
      rcases hname with rfl | rfl
      · exact .boolean true
      · exact .boolean false
    split at hparse
    · rename_i hname
      cases hparse
      exact ⟨[_], rfl, hname ▸ .null⟩
    · obtain ⟨used, rfl, hused⟩ := h.call hparse
      exact ⟨_, rfl, hused⟩
  · cases hparse

end

variable {name : JsString}

theorem callNamed_text {call : CallName} (h : callNamed name = some call) : call.text = name := by
  have hfound := find?_some h
  simpa using hfound

variable {args : List (ExpressionNode ν)}

theorem prints_buildCall {call : CallName} {used : List (Token ν)}
    (hargs : PrintsArgs args used) (hbuild : buildCall call args = some e) :
    Prints .primary e (.name call.text :: .punct .leftParen :: used) := by
  cases call with
  | unary name =>
    cases hargs with
    | last hprints =>
      cases hbuild
      exact .call name hprints
    | more _ hmore => cases hmore <;> cases hbuild
  | binary name =>
    cases hargs with
    | last => cases hbuild
    | more hfirst hmore =>
      cases hmore with
      | last hsecond =>
        cases hbuild
        exact .call₂ name hfirst hsecond
      | more _ hmore => cases hmore <;> cases hbuild

theorem parseCall_reads (h : ReadsWithin ν fuel) (hparse : parseCall (fuel + 1) name tokens = .ok (e, rest)) :
    Reads (fun used => Prints .primary e (.name name :: used)) tokens rest := by
  unfold parseCall at hparse
  cases hcall : callNamed name with
  | none =>
    rw [hcall] at hparse
    cases hparse
  | some call =>
    rw [hcall] at hparse
    dsimp only at hparse
    split at hparse
    · obtain ⟨⟨args, tokens₁⟩, hargs, hnext⟩ := bind_eq_ok.mp hparse
      dsimp only at hnext
      cases hbuild : buildCall call args with
      | none =>
        rw [hbuild] at hnext
        cases hnext
      | some node =>
        rw [hbuild] at hnext
        cases hnext
        have hne : args ≠ [] := by
          rintro rfl
          cases call <;> cases hbuild
        obtain ⟨used, rfl, hused⟩ := h.args hargs hne
        exact ⟨_, rfl, callNamed_text hcall ▸ prints_buildCall hused hbuild⟩
    · cases hparse

theorem parseArgs_reads (h : ReadsWithin ν fuel)
    (hparse : parseArgs (fuel + 1) name tokens = .ok (args, rest)) (hne : args ≠ []) :
    Reads (PrintsArgs args) tokens rest := by
  unfold parseArgs at hparse
  split at hparse
  · cases hparse
    exact absurd rfl hne
  · exact h.argList hparse

theorem parseArgList_reads (h : ReadsWithin ν fuel)
    (hparse : parseArgList (fuel + 1) name tokens = .ok (args, rest)) : Reads (PrintsArgs args) tokens rest := by
  unfold parseArgList at hparse
  obtain ⟨⟨arg, tokens₁⟩, harg, hnext⟩ := bind_eq_ok.mp hparse
  obtain ⟨ts, rfl, hts⟩ := h.ternary harg
  dsimp only at hnext
  split at hnext
  · obtain ⟨⟨more, tokens₂⟩, hmore, hafter⟩ := bind_eq_ok.mp hnext
    obtain ⟨us, rfl, hus⟩ := h.argList hmore
    cases hafter
    refine ⟨_, ?_, .more hts hus⟩
    simp only [append_assoc, cons_append]
  · cases hnext
    refine ⟨_, ?_, .last hts⟩
    simp only [append_assoc, cons_append, nil_append]
  · cases hnext

end Reading

theorem readsWithin (fuel : Nat) : ReadsWithin ν fuel := by
  induction fuel with
  | zero => constructor <;> intros <;> contradiction
  | succ fuel ih =>
    exact ⟨parseTernary_reads ih, parseBinary_reads ih, parseOperators_reads ih, parseUnary_reads ih,
      parsePrimary_reads ih, parseCall_reads ih, parseArgs_reads ih, parseArgList_reads ih⟩

theorem prints_of_parse {tokens : List (Token ν)} {e : ExpressionNode ν} (h : parse tokens = .ok e) :
    Prints .ternary e tokens := by
  unfold parse at h
  obtain ⟨⟨node, rest⟩, hparse, hend⟩ := bind_eq_ok.mp h
  obtain ⟨used, htokens, hused⟩ := (readsWithin _).ternary hparse
  dsimp only at hend
  split at hend
  · cases hend
    rwa [htokens, append_nil]
  · cases hend

/-! ## What is printed is parsed -/

section Completeness

variable {level : Level}

theorem Prints.ne_nil {e : ExpressionNode ν} {used : List (Token ν)} (h : Prints level e used) : used ≠ [] := by
  induction h with
  | ternary => simp
  | binary => simp
  | ofBinary _ ih => exact ih
  | ofTier _ _ ih => exact ih
  | ofUnary _ ih => exact ih
  | ofPrimary _ ih => exact ih
  | _ => exact cons_ne_nil _ _

theorem Prints.head_ne {e : ExpressionNode ν} {used : List (Token ν)} (h : Prints level e used) :
    used.head? ≠ some (.punct .rightParen) := by
  induction h with
  | ternary hc _ _ ih => rwa [head?_append_of_ne_nil _ hc.ne_nil]
  | binary _ hl _ ih => rwa [head?_append_of_ne_nil _ hl.ne_nil]
  | unary op => cases op <;> simp [UnaryOp.punct]
  | ofBinary _ ih => exact ih
  | ofTier _ _ ih => exact ih
  | ofUnary _ ih => exact ih
  | ofPrimary _ ih => exact ih
  | _ => simp

theorem BinaryOp.tier_lt (op : BinaryOp) : op.tier < BINARY_TIERS.length := by
  cases op <;> decide

theorem tierOperator_self (op : BinaryOp) (h : BINARY_TIERS[op.tier]? = some ops) :
    tierOperator ops (.binary op) = some op := by
  cases op <;> (cases h; rfl)

def Stops (tier : Nat) (rest : List (Token ν)) : Prop :=
  ∀ op : BinaryOp, rest.head? = some (.punct (.binary op)) → op.tier < tier

variable {tier : Nat}

theorem Stops.succ {rest : List (Token ν)} (h : Stops tier rest) : Stops (tier + 1) rest :=
  fun op hop => lt_succ_of_lt (h op hop)

theorem stops_punct (punct : Punct) {rest : List (Token ν)} (h : ∀ op : BinaryOp, punct ≠ .binary op) :
    Stops tier (.punct punct :: rest) :=
  fun op hop => absurd (Token.punct.inj (Option.some.inj hop)) (h op)

theorem parseOperators_of_stops {fuel tier : Nat} {rest : List (Token ν)}
    (hops : BINARY_TIERS[tier]? = some ops) (hstops : Stops tier rest) (e : ExpressionNode ν) :
    parseOperators (fuel + 1) tier ops e rest = .ok (e, rest) := by
  unfold parseOperators
  split
  · split
    · rfl
    · rename_i op hop
      obtain ⟨htier, rfl⟩ := tierOperator_some hops hop
      exact absurd (hstops op rfl) (htier ▸ lt_irrefl _)
  · rfl

/-- Go on with the operators of a tier, if it is one. -/
def continueBinary (fuel tier : Nat) (e : ExpressionNode ν) (rest : List (Token ν)) :
    Except JsString (ExpressionNode ν × List (Token ν)) :=
  match BINARY_TIERS[tier]? with
  | none => .ok (e, rest)
  | some ops => parseOperators fuel tier ops e rest

/-- With fuel for the tokens, the parser of the level reads them back as the expression. A tier is read up to where it
goes on: what it has read is the left operand of what comes. -/
def ParsesAt : Level → ExpressionNode ν → List (Token ν) → Prop
  | .ternary, e, used => ∀ fuel rest, 24 * used.length ≤ fuel → Stops 0 rest → rest.head? ≠ some (.punct .question) →
      parseTernary fuel (used ++ rest) = .ok (e, rest)
  | .binary tier, e, used => ∀ fuel rest, 24 * used.length ≤ fuel + (tier + 1) → Stops (tier + 1) rest →
      ∃ left, fuel ≤ left + used.length ∧ parseBinary fuel tier (used ++ rest) = continueBinary left tier e rest
  | .unary, e, used => ∀ fuel rest, 24 * used.length ≤ fuel + 8 → parseUnary fuel (used ++ rest) = .ok (e, rest)
  | .primary, e, used => ∀ fuel rest, 24 * used.length ≤ fuel + 9 → parsePrimary fuel (used ++ rest) = .ok (e, rest)

variable {e : ExpressionNode ν} {used : List (Token ν)}

theorem ParsesAt.binary_stops (h : ParsesAt (.binary tier) e used) (htier : tier ≤ BINARY_TIERS.length)
    (hne : used ≠ []) {fuel : Nat} {rest : List (Token ν)} (hfuel : 24 * used.length ≤ fuel + (tier + 1))
    (hstops : Stops tier rest) : parseBinary fuel tier (used ++ rest) = .ok (e, rest) := by
  obtain ⟨left, hleft, hparse⟩ := h fuel rest hfuel hstops.succ
  have hpos := length_pos_of_ne_nil hne
  have hlength : BINARY_TIERS.length = 6 := rfl
  rw [hparse, continueBinary]
  cases hops : BINARY_TIERS[tier]? with
  | none => rfl
  | some ops =>
    obtain ⟨left, rfl⟩ : ∃ k, left = k + 1 := exists_eq_succ_of_ne_zero (by omega)
    exact parseOperators_of_stops hops hstops e

theorem parseArgList_last {fuel : Nat} {name : JsString} {rest : List (Token ν)} (h : ParsesAt .ternary e used)
    (hfuel : 24 * used.length ≤ fuel) :
    parseArgList (fuel + 1) name (used ++ .punct .rightParen :: rest) = .ok ([e], rest) := by
  unfold parseArgList
  rw [h fuel _ hfuel (stops_punct .rightParen nofun) (by simp)]
  rfl

theorem parseArgList_more {fuel : Nat} {name : JsString} {rest remaining : List (Token ν)}
    {args : List (ExpressionNode ν)} (h : ParsesAt .ternary e used) (hfuel : 24 * used.length ≤ fuel)
    (hmore : parseArgList fuel name rest = .ok (args, remaining)) :
    parseArgList (fuel + 1) name (used ++ .punct .comma :: rest) = .ok (e :: args, remaining) := by
  unfold parseArgList
  rw [h fuel _ hfuel (stops_punct .comma nofun) (by simp)]
  change (parseArgList fuel name rest >>= fun pair => .ok (e :: pair.1, pair.2)) = _
  rw [hmore]
  rfl

theorem parsePrimary_call (call : CallName) {fuel : Nat} {tokens rest : List (Token ν)}
    {args : List (ExpressionNode ν)} (hhead : tokens.head? ≠ some (.punct .rightParen))
    (hargs : parseArgList fuel call.text tokens = .ok (args, rest)) (hbuild : buildCall call args = some e) :
    parsePrimary (fuel + 3) (.name call.text :: .punct .leftParen :: tokens) = .ok (e, rest) := by
  have hliteral : ¬(call.text = js "true" ∨ call.text = js "false") ∧ call.text ≠ js "null" := by
    cases call with
    | unary name | binary name => cases name <;> decide
  have hnamed : callNamed call.text = some call := by
    cases call with
    | unary name | binary name => cases name <;> rfl
  have hparsed : parseArgs (fuel + 1) call.text tokens = .ok (args, rest) := by
    unfold parseArgs
    split
    · exact absurd rfl hhead
    · exact hargs
  unfold parsePrimary
  dsimp only
  rw [if_neg hliteral.1, if_neg hliteral.2, parseCall, hnamed]
  dsimp only
  rw [hparsed]
  change (match buildCall call args with
    | some node => (.ok (node, rest) : Except JsString (ExpressionNode ν × List (Token ν)))
    | none => _) = _
  rw [hbuild]

theorem parseUnary_primary (h : Prints .primary e used) (fuel : Nat) (rest : List (Token ν)) :
    parseUnary (fuel + 1) (used ++ rest) = parsePrimary fuel (used ++ rest) := by
  cases h <;> rfl

theorem ParsesAt.ternary {c t f : ExpressionNode ν} {cs ts fs : List (Token ν)} (hc : ParsesAt (.binary 0) c cs)
    (ht : ParsesAt .ternary t ts) (hf : ParsesAt .ternary f fs) (hne : cs ≠ []) :
    ParsesAt .ternary (.ternary c t f) (cs ++ .punct .question :: (ts ++ .punct .colon :: fs)) := by
  intro fuel rest hfuel hstops hhead
  have hpos := length_pos_of_ne_nil hne
  simp only [length_append, length_cons] at hfuel
  obtain ⟨fuel, rfl⟩ : ∃ k, fuel = k + 1 := exists_eq_succ_of_ne_zero (by omega)
  simp only [append_assoc, cons_append]
  unfold parseTernary
  rw [hc.binary_stops (zero_le _) hne (by omega) (stops_punct .question nofun)]
  change (parseTernary fuel (ts ++ .punct .colon :: (fs ++ rest)) >>= _) = _
  rw [ht fuel _ (by omega) (stops_punct .colon nofun) (by simp)]
  change (parseTernary fuel (fs ++ rest) >>= _) = _
  rw [hf fuel rest (by omega) hstops hhead]
  rfl

theorem ParsesAt.ofBinary (h : ParsesAt (.binary 0) e used) (hne : used ≠ []) : ParsesAt .ternary e used := by
  intro fuel rest hfuel hstops hhead
  have hpos := length_pos_of_ne_nil hne
  obtain ⟨fuel, rfl⟩ : ∃ k, fuel = k + 1 := exists_eq_succ_of_ne_zero (by omega)
  unfold parseTernary
  rw [h.binary_stops (zero_le _) hne (by omega) hstops]
  change (match rest with
    | .punct .question :: tokens => _
    | tokens => (.ok (e, tokens) : Except JsString (ExpressionNode ν × List (Token ν)))) = _
  split
  · exact absurd rfl hhead
  · rfl

theorem ParsesAt.binary (op : BinaryOp) {l r : ExpressionNode ν} {ls rs : List (Token ν)}
    (hl : ParsesAt (.binary op.tier) l ls) (hr : ParsesAt (.binary (op.tier + 1)) r rs) (hne : rs ≠ []) :
    ParsesAt (.binary op.tier) (.binary op l r) (ls ++ .punct (.binary op) :: rs) := by
  intro fuel rest hfuel hstops
  have hlength : BINARY_TIERS.length = 6 := rfl
  have htier := op.tier_lt
  simp only [length_append, length_cons] at hfuel ⊢
  simp only [append_assoc, cons_append]
  obtain ⟨left, hleft, hparse⟩ := hl fuel (.punct (.binary op) :: (rs ++ rest)) (by omega) fun op' hop => by
    cases hop
    exact lt_succ_self _
  obtain ⟨ops, hops⟩ : ∃ ops, BINARY_TIERS[op.tier]? = some ops := ⟨_, getElem?_eq_getElem htier⟩
  obtain ⟨left, rfl⟩ : ∃ k, left = k + 1 := exists_eq_succ_of_ne_zero (by omega)
  refine ⟨left, by omega, ?_⟩
  rw [hparse, continueBinary, continueBinary, hops]
  dsimp only
  rw [parseOperators]
  dsimp only
  rw [tierOperator_self op hops]
  dsimp only
  rw [hr.binary_stops htier hne (by omega) hstops]
  rfl

theorem ParsesAt.ofTier (htier : tier < BINARY_TIERS.length) (h : ParsesAt (.binary (tier + 1)) e used)
    (hne : used ≠ []) : ParsesAt (.binary tier) e used := by
  intro fuel rest hfuel hstops
  have hlength : BINARY_TIERS.length = 6 := rfl
  have hpos := length_pos_of_ne_nil hne
  obtain ⟨fuel, rfl⟩ : ∃ k, fuel = k + 1 := exists_eq_succ_of_ne_zero (by omega)
  obtain ⟨ops, hops⟩ : ∃ ops, BINARY_TIERS[tier]? = some ops := ⟨_, getElem?_eq_getElem htier⟩
  refine ⟨fuel, by omega, ?_⟩
  rw [parseBinary, continueBinary, hops]
  dsimp only
  rw [h.binary_stops htier hne (by omega) hstops]
  rfl

theorem ParsesAt.unary (op : UnaryOp) (h : ParsesAt .unary e used) :
    ParsesAt .unary (.unary op e) (.punct op.punct :: used) := by
  intro fuel rest hfuel
  simp only [length_cons] at hfuel
  obtain ⟨fuel, rfl⟩ : ∃ k, fuel = k + 1 := exists_eq_succ_of_ne_zero (by omega)
  have hoperand := h fuel rest (by omega)
  rw [cons_append]
  cases op with
  | neg =>
    change (parseUnary fuel (used ++ rest) >>= fun pair => .ok (ExpressionNode.unary .neg pair.1, pair.2)) = _
    rw [hoperand]
    rfl
  | not =>
    change (parseUnary fuel (used ++ rest) >>= fun pair => .ok (ExpressionNode.unary .not pair.1, pair.2)) = _
    rw [hoperand]
    rfl

theorem Prints.parsesAt (h : Prints level e used) : ParsesAt level e used := by
  have hlength : BINARY_TIERS.length = 6 := rfl
  induction h with
  | ternary hc _ _ ihc iht ihf => exact ihc.ternary iht ihf hc.ne_nil
  | binary op _ hr ihl ihr => exact .binary op ihl ihr hr.ne_nil
  | unary op _ ih => exact ih.unary op
  | @call name e ts hprints ih =>
    intro fuel rest hfuel
    simp only [length_append, length_cons, length_nil] at hfuel
    obtain ⟨fuel, rfl⟩ : ∃ k, fuel = k + 4 := Nat.exists_eq_add_of_le' (by omega)
    simp only [append_assoc, cons_append, nil_append]
    have hhead : (ts ++ .punct .rightParen :: rest).head? ≠ some (.punct .rightParen) := by
      rw [head?_append_of_ne_nil _ hprints.ne_nil]
      exact hprints.head_ne
    exact parsePrimary_call (.unary name) hhead (parseArgList_last ih (by omega)) rfl
  | @call₂ name e₁ e₂ ts₁ ts₂ hfirst hsecond ihfirst ihsecond =>
    intro fuel rest hfuel
    simp only [length_append, length_cons, length_nil] at hfuel
    obtain ⟨fuel, rfl⟩ : ∃ k, fuel = k + 5 := Nat.exists_eq_add_of_le' (by omega)
    simp only [append_assoc, cons_append, nil_append]
    have hhead : (ts₁ ++ .punct .comma :: (ts₂ ++ .punct .rightParen :: rest)).head? ≠ some (.punct .rightParen) := by
      rw [head?_append_of_ne_nil _ hfirst.ne_nil]
      exact hfirst.head_ne
    exact parsePrimary_call (.binary name) hhead
      (parseArgList_more ihfirst (by omega) (parseArgList_last ihsecond (by omega))) rfl
  | @parens e ts hprints ih =>
    intro fuel rest hfuel
    simp only [length_append, length_cons, length_nil] at hfuel
    obtain ⟨fuel, rfl⟩ : ∃ k, fuel = k + 1 := Nat.exists_eq_succ_of_ne_zero (by omega)
    simp only [append_assoc, cons_append, nil_append]
    unfold parsePrimary
    dsimp only
    rw [ih fuel _ (by omega) (stops_punct .rightParen nofun) (by simp)]
    rfl
  | ofBinary hprints ih => exact ih.ofBinary hprints.ne_nil
  | ofTier htier hprints ih => exact ih.ofTier htier hprints.ne_nil
  | @ofUnary e ts hprints ih =>
    intro fuel rest hfuel _
    have hpos := length_pos_of_ne_nil hprints.ne_nil
    obtain ⟨fuel, rfl⟩ : ∃ k, fuel = k + 1 := Nat.exists_eq_succ_of_ne_zero (by omega)
    exact ⟨fuel, by omega, ih fuel rest (by omega)⟩
  | @ofPrimary e ts hprints ih =>
    intro fuel rest hfuel
    have hpos := length_pos_of_ne_nil hprints.ne_nil
    obtain ⟨fuel, rfl⟩ : ∃ k, fuel = k + 1 := Nat.exists_eq_succ_of_ne_zero (by omega)
    rw [parseUnary_primary hprints]
    exact ih fuel rest (by omega)
  | boolean value =>
    intro fuel rest hfuel
    obtain ⟨fuel, rfl⟩ : ∃ k, fuel = k + 1 := Nat.exists_eq_succ_of_ne_zero (by simp at hfuel; omega)
    cases value <;> rfl
  | _ =>
    intro fuel rest hfuel
    obtain ⟨fuel, rfl⟩ : ∃ k, fuel = k + 1 := Nat.exists_eq_succ_of_ne_zero (by simp at hfuel; omega)
    rfl

theorem parse_of_prints (h : Prints .ternary e used) : parse used = .ok e := by
  have hparse := h.parsesAt (parseFuel used) [] (by unfold parseFuel; omega) (fun op hop => nomatch hop) nofun
  rw [append_nil] at hparse
  rw [parse, hparse]
  rfl

end Completeness

end ClawWorks
