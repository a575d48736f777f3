import ClawWorks.Enterprise.OntologyExpression
import ClawWorks.Enterprise.Schema

/-!
# Tokens of expressions

The tokenizer takes the longest run of characters a token can go on with, and of the operators the first in a list that
has the longer ones first.
-/

namespace ClawWorks

open List

variable {ν : Type}

/-- `Number(raw)` of digits and dots, when it is a finite number. -/
class JsNumberSyntax (ν : Type) where
  finiteNumber : JsString → Option ν

/-- Operators and brackets. -/
inductive Punct
  | binary (op : BinaryOp)
  | not
  | leftParen
  | rightParen
  | comma
  | question
  | colon
  deriving DecidableEq

def Punct.text : Punct → JsString
  | .binary op => op.text
  | .not => js "!"
  | .leftParen => js "("
  | .rightParen => js ")"
  | .comma => js ","
  | .question => js "?"
  | .colon => js ":"

/-- Multi-char operators first: `<` would otherwise shadow `<=`. -/
def PUNCT : List Punct :=
  [.binary .or, .binary .and, .binary .eq, .binary .ne, .binary .le, .binary .ge, .binary .lt, .binary .gt,
    .binary .add, .binary .sub, .binary .mul, .binary .div, .binary .rem, .not, .leftParen, .rightParen,
    .comma, .question, .colon]

/-- A token; the end of the list is the end of the input. -/
inductive Token (ν : Type)
  | number (value : ν)
  | string (value : JsString)
  | property (id : EnterpriseId)
  | name (value : JsString)
  | punct (value : Punct)

/-! ## Characters -/

def DOLLAR : UInt16 := 36
def QUOTE : UInt16 := 39
def DOUBLE_QUOTE : UInt16 := 34
def DOT : UInt16 := 46

/-- `[a-z]`. -/
def isLowerLetter (u : UInt16) : Bool :=
  97 ≤ u && u ≤ 122

/-- `[0-9.]`. -/
def isNumberChar (u : UInt16) : Bool :=
  isDigit u || u = DOT

/-- Call names: a closed set, none of which is dotted. -/
def isNameChar (u : UInt16) : Bool :=
  isLowerLetter u || isDigit u || u = DASH

/-- Property refs additionally take dots. -/
def isPropertyRefChar (u : UInt16) : Bool :=
  isNameChar u || u = DOT

theorem isWhiteSpace_of_visible {u : UInt16} (hlow : 33 ≤ u) (hhigh : u ≤ 126) : isWhiteSpace u = false := by
  rw [Bool.eq_false_iff]
  intro h
  simp only [isWhiteSpace, Bool.or_eq_true, Bool.and_eq_true, decide_eq_true_eq, beq_iff_eq, UInt16.le_iff_toNat_le,
    ← UInt16.toNat_inj, UInt16.reduceToNat] at h hlow hhigh
  omega

/-! ## The tokenizer -/

/-- A number as a message writes it. -/
def decimal (n : Nat) : JsString :=
  js (toString n)

section Tokenizer

variable [JsNumberSyntax ν]

/-- The token that starts with `char`, and what comes after it. -/
def nextToken (position : Nat) (char : UInt16) (rest : JsString) : Except JsString (Token ν × JsString) :=
  if char = DOLLAR then
    let id := rest.takeWhile isPropertyRefChar
    if id = [] then .error (js "expected a property id after \"$\" at position " ++ decimal position)
    else if !isEnterpriseId id then
      .error (js "\"$" ++ id ++ js "\" at position " ++ decimal position ++ js " is not a valid property id")
    else .ok (.property id, rest.dropWhile isPropertyRefChar)
  else if char = QUOTE ∨ char = DOUBLE_QUOTE then
    match rest.dropWhile (· ≠ char) with
    | [] => .error (js "unterminated string starting at position " ++ decimal position)
    | _ :: remaining => .ok (.string (rest.takeWhile (· ≠ char)), remaining)
  else if isDigit char then
    let raw := char :: rest.takeWhile isNumberChar
    match JsNumberSyntax.finiteNumber raw with
    | none => .error (js "invalid number \"" ++ raw ++ js "\" at position " ++ decimal position)
    | some value => .ok (.number value, rest.dropWhile isNumberChar)
  else if isLowerLetter char then
    .ok (.name (char :: rest.takeWhile isNameChar), rest.dropWhile isNameChar)
  else
    match PUNCT.find? fun candidate => candidate.text.isPrefixOf (char :: rest) with
    | none => .error (js "unexpected character \"" ++ [char] ++ js "\" at position " ++ decimal position)
    | some punct => .ok (.punct punct, (char :: rest).drop punct.text.length)

/-- How a token can be written. -/
inductive Spelling : Token ν → JsString → Prop
  | number {char : UInt16} {digits : JsString} {value : ν} :
    isDigit char = true → (∀ u ∈ digits, isNumberChar u = true) →
      JsNumberSyntax.finiteNumber (char :: digits) = some value → Spelling (.number value) (char :: digits)
  | string {quote : UInt16} {value : JsString} : quote = QUOTE ∨ quote = DOUBLE_QUOTE → quote ∉ value →
      Spelling (.string value) (quote :: (value ++ [quote]))
  | property {id : EnterpriseId} : isEnterpriseId id = true → Spelling (.property id) (DOLLAR :: id)
  | name {char : UInt16} {chars : JsString} : isLowerLetter char = true → (∀ u ∈ chars, isNameChar u = true) →
      Spelling (.name (char :: chars)) (char :: chars)
  | punct (value : Punct) : Spelling (.punct value) value.text

theorem Punct.text_ne_nil (value : Punct) : value.text ≠ [] := by
  cases value with
  | binary op => cases op <;> decide
  | _ => decide

variable {token : Token ν}

theorem Spelling.ne_nil {text : JsString} (h : Spelling token text) : text ≠ [] := by
  cases h with
  | punct value => exact value.text_ne_nil
  | _ => exact cons_ne_nil _ _

variable {char : UInt16}

theorem nextToken_ok {position : Nat} {rest remaining : JsString}
    (h : nextToken position char rest = .ok (token, remaining)) :
    ∃ text, Spelling token text ∧ char :: rest = text ++ remaining := by
  unfold nextToken at h
  split at h
  · rename_i hdollar
    dsimp only at h
    split at h
    · cases h
    split at h
    · cases h
    rename_i hid
    cases h
    refine ⟨_, .property (by simpa using hid), ?_⟩
    rw [hdollar, cons_append, takeWhile_append_dropWhile]
  split at h
  · rename_i hquote
    cases htail : rest.dropWhile (· ≠ char) with
    | nil =>
      rw [htail] at h
      cases h
    | cons last tail =>
      rw [htail] at h
      cases h
      have hlast : last = char := by
        have hhead := head?_dropWhile_not (fun u => decide (u ≠ char)) rest
        rw [htail] at hhead
        simpa using hhead
      refine ⟨_, .string hquote fun hmem => ?_, ?_⟩
      · simpa using mem_takeWhile_imp hmem
      · rw [cons_append, append_assoc, singleton_append, ← hlast, ← htail, hlast, takeWhile_append_dropWhile]
  split at h
  · rename_i hdigit
    dsimp only at h
    cases hvalue : (JsNumberSyntax.finiteNumber (char :: rest.takeWhile isNumberChar) : Option ν) with
    | none =>
      rw [hvalue] at h
      cases h
    | some value =>
      rw [hvalue] at h
      cases h
      refine ⟨_, .number hdigit (fun u hu => mem_takeWhile_imp hu) hvalue, ?_⟩
      rw [cons_append, takeWhile_append_dropWhile]
  split at h
  · rename_i hletter
    cases h
    refine ⟨_, .name hletter fun u hu => mem_takeWhile_imp hu, ?_⟩
    rw [cons_append, takeWhile_append_dropWhile]
  · cases hpunct : PUNCT.find? fun candidate => candidate.text.isPrefixOf (char :: rest) with
    | none =>
      rw [hpunct] at h
      cases h
    | some punct =>
      rw [hpunct] at h
      cases h
      have hprefix : punct.text.isPrefixOf (char :: rest) := by
        have hfound := find?_some hpunct
        exact hfound
      obtain ⟨tail, htail⟩ := isPrefixOf_iff_prefix.mp hprefix
      refine ⟨_, .punct punct, ?_⟩
      rw [← htail, drop_left]

theorem nextToken_shorter {position : Nat} {rest remaining : JsString}
    (h : nextToken position char rest = .ok (token, remaining)) : remaining.length < (char :: rest).length := by
  obtain ⟨text, hspelling, hsource⟩ := nextToken_ok h
  have hpos := length_pos_of_ne_nil hspelling.ne_nil
  rw [hsource, length_append]
  omega

def tokenizeFrom (position : Nat) : JsString → Except JsString (List (Token ν))
  | [] => .ok []
  | char :: rest =>
    if isWhiteSpace char then tokenizeFrom (position + 1) rest
    else
      match h : nextToken position char rest with
      | .error message => .error message
      | .ok (token, remaining) =>
        have := nextToken_shorter h
        (tokenizeFrom (position + ((char :: rest).length - remaining.length)) remaining).map (token :: ·)
termination_by source => source.length
decreasing_by
  · exact Nat.lt_succ_self _
  · exact this

def tokenize (source : JsString) : Except JsString (List (Token ν)) :=
  tokenizeFrom 0 source

/-- A source that spells tokens, with any white space between them. -/
inductive Spells : List (Token ν) → JsString → Prop
  | nil : Spells [] []
  | space {char : UInt16} {tokens : List (Token ν)} {source : JsString} :
      isWhiteSpace char = true → Spells tokens source → Spells tokens (char :: source)
  | token {token : Token ν} {text : JsString} {tokens : List (Token ν)} {source : JsString} :
      Spelling token text → Spells tokens source → Spells (token :: tokens) (text ++ source)

theorem spells_of_tokenizeFrom (position : Nat) (source : JsString) (tokens : List (Token ν))
    (h : tokenizeFrom position source = .ok tokens) : Spells tokens source := by
  fun_induction tokenizeFrom (ν := ν) position source generalizing tokens with
  | case1 position =>
    cases h
    exact .nil
  | case2 position char rest hspace ih => exact .space hspace (ih tokens h)
  | case3 position char rest hspace message hnext => cases h
  | case4 position char rest hspace token remaining hnext hshorter ih =>
    obtain ⟨text, hspelling, hsource⟩ := nextToken_ok hnext
    cases htail : (tokenizeFrom (position + ((char :: rest).length - remaining.length)) remaining :
      Except JsString (List (Token ν))) with
    | error message =>
      rw [htail] at h
      cases h
    | ok tail =>
      rw [htail] at h
      cases h
      rw [hsource]
      exact .token hspelling (ih tail htail)

variable {tokens : List (Token ν)} {source : JsString}

theorem spells_of_tokenize (h : tokenize source = .ok tokens) : Spells tokens source :=
  spells_of_tokenizeFrom 0 source tokens h

/-! ## Reading spelled tokens back -/

inductive Spaced : List (Token ν) → JsString → Prop
  | nil : Spaced [] []
  | cons {token : Token ν} {text : JsString} {tokens : List (Token ν)} {source : JsString} :
      Spelling token text → Spaced tokens source → Spaced (token :: tokens) (text ++ (0x0020 :: source))

theorem takeWhile_append_space {p : UInt16 → Bool} {chars : JsString} (hchars : ∀ u ∈ chars, p u)
    (hspace : p 0x0020 = false) (source : JsString) : (chars ++ (0x0020 :: source)).takeWhile p = chars ∧
      (chars ++ (0x0020 :: source)).dropWhile p = 0x0020 :: source := by
  rw [takeWhile_append_of_pos hchars, dropWhile_append_of_pos hchars,
    takeWhile_cons_of_neg (by simp [hspace]), dropWhile_cons_of_neg (by simp [hspace]), append_nil]
  exact ⟨rfl, rfl⟩

theorem isPropertyRefChar_of_matches {id : JsString} {fresh : Bool} (h : matchesIdPattern fresh id) :
    ∀ u ∈ id, isPropertyRefChar u := by
  induction id generalizing fresh with
  | nil => exact fun u hu => nomatch hu
  | cons u id ih =>
    have hu : isPropertyRefChar u ∧ ∃ fresh, matchesIdPattern fresh id := by
      unfold matchesIdPattern at h
      split at h
      · rename_i hchar
        refine ⟨?_, false, h⟩
        simp only [isPropertyRefChar, isNameChar, isLowerLetter, isDigit]
        simp only [isIdCharacter] at hchar
        grind
      split at h
      · cases h
      split at h
      · rename_i hdash
        exact ⟨by rw [hdash]; decide, false, h⟩
      split at h
      · rename_i hdot
        exact ⟨by rw [hdot]; decide, true, h⟩
      · cases h
    obtain ⟨hchar, next, hnext⟩ := hu
    intro v hv
    rcases mem_cons.mp hv with rfl | hin
    · exact hchar
    · exact ih hnext v hin

theorem find_punct (value : Punct) (source : JsString) :
    PUNCT.find? (fun candidate => candidate.text.isPrefixOf (value.text ++ (0x0020 :: source))) = some value := by
  cases value with
  | binary op => cases op <;> rfl
  | _ => rfl

theorem Punct.head_text (value : Punct) (h : value.text.head? = some char) :
    isWhiteSpace char = false ∧ char ≠ DOLLAR ∧ ¬(char = QUOTE ∨ char = DOUBLE_QUOTE) ∧ isDigit char = false ∧
      isLowerLetter char = false := by
  cases value with
  | binary op =>
    cases op <;>
    · cases h
      decide
  | _ =>
    cases h
    decide

theorem nextToken_spelling {text whole : JsString} (h : Spelling token whole)
    (hwhole : whole = char :: text) (source : JsString) (position : Nat) :
    nextToken position char (text ++ (0x0020 :: source)) = .ok (token, 0x0020 :: source) := by
  unfold nextToken
  cases h with
  | @number first digits value hdigit hdigits hvalue =>
    obtain ⟨rfl, rfl⟩ := cons.inj hwhole
    have hdollar : first ≠ DOLLAR := by rintro rfl; exact absurd hdigit (by decide)
    have hquote : ¬(first = QUOTE ∨ first = DOUBLE_QUOTE) := by
      rintro (rfl | rfl) <;> exact absurd hdigit (by decide)
    obtain ⟨htake, hdrop⟩ := takeWhile_append_space hdigits (by decide) source
    rw [if_neg hdollar, if_neg hquote, if_pos hdigit, htake, hdrop]
    simp only [hvalue]
  | @string quote value hquote hfree =>
    obtain ⟨rfl, rfl⟩ := cons.inj hwhole
    have hdollar : quote ≠ DOLLAR := by rintro rfl; exact absurd hquote (by decide)
    have hvalue : ∀ u ∈ value, decide (u ≠ quote) := fun u hu =>
      decide_eq_true fun heq => hfree (heq ▸ hu)
    rw [if_neg hdollar, if_pos hquote, append_assoc, singleton_append, dropWhile_append_of_pos hvalue,
      takeWhile_append_of_pos hvalue, dropWhile_cons_of_neg (by simp), takeWhile_cons_of_neg (by simp),
      append_nil]
  | @property id hid =>
    obtain ⟨rfl, rfl⟩ := cons.inj hwhole
    obtain ⟨htake, hdrop⟩ := takeWhile_append_space (isPropertyRefChar_of_matches hid) (by decide) source
    have hne : id ≠ [] := by rintro rfl; cases hid
    simp only [if_true, htake, hdrop, if_neg hne, hid, Bool.not_true, Bool.false_eq_true, if_false]
  | @name first chars hletter hchars =>
    obtain ⟨rfl, rfl⟩ := cons.inj hwhole
    have hdollar : first ≠ DOLLAR := by rintro rfl; exact absurd hletter (by decide)
    have hquote : ¬(first = QUOTE ∨ first = DOUBLE_QUOTE) := by
      rintro (rfl | rfl) <;> exact absurd hletter (by decide)
    have hdigit : isDigit first = false := by
      simp only [isDigit, isLowerLetter] at hletter ⊢
      grind
    obtain ⟨htake, hdrop⟩ := takeWhile_append_space hchars (by decide) source
    rw [if_neg hdollar, if_neg hquote, hdigit, if_neg Bool.false_ne_true, if_pos hletter, htake, hdrop]
  | punct value =>
    obtain ⟨-, hdollar, hquote, hdigit, hletter⟩ := value.head_text (by rw [hwhole]; rfl)
    have hfind := find_punct value source
    rw [hwhole, cons_append] at hfind
    rw [if_neg hdollar, if_neg hquote, hdigit, if_neg Bool.false_ne_true, hletter, if_neg Bool.false_ne_true, hfind]
    dsimp only
    rw [hwhole, ← cons_append, drop_left]

theorem not_isWhiteSpace_of_spelling {text whole : JsString}
    (h : Spelling token whole) (hwhole : whole = char :: text) : isWhiteSpace char = false := by
  cases h with
  | number hdigit =>
    obtain ⟨rfl, -⟩ := cons.inj hwhole
    simp only [isDigit, Bool.and_eq_true, decide_eq_true_eq] at hdigit
    exact isWhiteSpace_of_visible (UInt16.le_trans (by decide : (33 : UInt16) ≤ 48) hdigit.1)
      (UInt16.le_trans hdigit.2 (by decide : (57 : UInt16) ≤ 126))
  | string hquote =>
    obtain ⟨rfl, -⟩ := cons.inj hwhole
    rcases hquote with rfl | rfl <;> decide
  | property =>
    obtain ⟨rfl, -⟩ := cons.inj hwhole
    decide
  | name hletter =>
    obtain ⟨rfl, -⟩ := cons.inj hwhole
    simp only [isLowerLetter, Bool.and_eq_true, decide_eq_true_eq] at hletter
    exact isWhiteSpace_of_visible (UInt16.le_trans (by decide : (33 : UInt16) ≤ 97) hletter.1)
      (UInt16.le_trans hletter.2 (by decide : (122 : UInt16) ≤ 126))
  | punct value => exact (value.head_text (by rw [hwhole]; rfl)).1

theorem tokenizeFrom_of_spaced (h : Spaced tokens source) : ∀ position, tokenizeFrom position source = .ok tokens := by
  induction h with
  | nil =>
    intro position
    rw [tokenizeFrom]
  | @cons token text tokens source hspelling _ ih =>
    intro position
    obtain ⟨char, rest, htext⟩ := exists_cons_of_ne_nil hspelling.ne_nil
    have hnext := nextToken_spelling hspelling htext source position
    rw [htext, cons_append, tokenizeFrom, if_neg (by simp [not_isWhiteSpace_of_spelling hspelling htext])]
    split
    · rename_i message herror
      rw [hnext] at herror
      cases herror
    · rename_i next remaining hok
      obtain ⟨rfl, rfl⟩ := Prod.mk.inj (Except.ok.inj (hnext.symm.trans hok))
      rw [tokenizeFrom, if_pos (by decide), ih]
      rfl

theorem tokenize_of_spaced (h : Spaced tokens source) : tokenize source = .ok tokens := tokenizeFrom_of_spaced h 0

end Tokenizer

end ClawWorks
