import ClawWorks.ToolCallRepair.Payload

/-!
# Whether buffered text can become a tool call

The stream holds text back as long as it can still become a call.
-/

namespace ClawWorks.ToolCallRepair

open List Unfinished PrefixClosed

/-! ## The tests -/

/-- What a request may repair. -/
structure PlainTextToolCallNameMatcher where
  /-- A complete tool name. -/
  hasExactName : JsString → Bool
  /-- The beginning of a tool name. -/
  hasNamePrefix : JsString → Bool

def couldStillBeJsonPayload (text : JsString) : Bool :=
  skipping isWhiteSpace (fun rest => rest.head? == some LBRACE) text

def couldStillBeXmlishParameterPayload (text : JsString) : Bool :=
  skipping isWhiteSpace (fun rest => matchesLiteral (rest.map asciiLower) (js "<parameter=")) text

def couldStillBePayload (text : JsString) : Bool :=
  couldStillBeJsonPayload text || couldStillBeXmlishParameterPayload text

/-- A line break, or the part of it that has arrived, and then a payload. -/
def couldStillBeLineBreak : JsString → Bool
  | [] => true
  | 13 :: [] => true
  | 13 :: 10 :: rest => couldStillBePayload rest
  | 13 :: rest => couldStillBePayload rest
  | 10 :: rest => couldStillBePayload rest
  | _ => false

section Tests

variable (matcher : PlainTextToolCallNameMatcher)

/-- The character that closes a header, and then what passes a test, where the name is complete. -/
def closingHeader (close : UInt16) (next : JsString → Bool) (name rest : JsString) : Bool :=
  rest.head? == some close && matcher.hasExactName name && next rest.tail

variable (text : JsString)

def couldStillBeBracketedStandaloneToolCall : Bool :=
  text.head? == some LBRACKET && orLiteral (js "[tool:") (naming isPlainTextToolNameChar matcher.hasNamePrefix
        (closingHeader matcher RBRACKET couldStillBePayload))
      (fun text =>
        naming isPlainTextToolNameChar matcher.hasNamePrefix
          (closingHeader matcher RBRACKET (skipping isHorizontalSpace couldStillBeLineBreak)) text.tail)
      text

def couldStillBeXmlishFunctionToolCall : Bool :=
  thenLiteral asciiLower (js "<function=") (naming isXmlishNameChar matcher.hasNamePrefix
      (closingHeader matcher GREATER couldStillBeXmlishParameterPayload)) text

/-- The `code` of a harmony header, and what may follow it. -/
def couldStillBeHarmonyCode : Bool :=
  thenLiteral id (js "code")
    (skipping isWhiteSpace fun rest => matchesLiteral rest HARMONY_MESSAGE_MARKER || rest.head? == some LBRACE) text

/-- A harmony header behind the channel. -/
def couldStillBeHarmonyTarget : Bool :=
  skipping isHorizontalSpace (thenLiteral id (js "to=")
      (naming isPlainTextToolNameChar matcher.hasNamePrefix fun name =>
        skipping isHorizontalSpace fun rest => matcher.hasExactName name && couldStillBeHarmonyCode rest)) text

/-- A harmony header behind the optional channel marker. -/
def couldStillBeHarmonyChannel (rest : JsString) : Bool :=
  match HARMONY_CHANNELS.find? fun candidate => matchesLiteral rest candidate with
  | none => false
  | some channel =>
    decide (rest.length ≤ channel.length) || couldStillBeHarmonyTarget matcher (rest.drop channel.length)

def couldStillBeHarmonyStandaloneToolCall : Bool :=
  orLiteral HARMONY_CHANNEL_MARKER (couldStillBeHarmonyChannel matcher) (couldStillBeHarmonyChannel matcher) text

/-- Any of the three. -/
def couldStillBeToolCall : Bool :=
  couldStillBeBracketedStandaloneToolCall matcher text || couldStillBeXmlishFunctionToolCall matcher text ||
    couldStillBeHarmonyStandaloneToolCall matcher text

/-! ## Beyond the cap -/

def TEXT_TOOL_CALL_BUFFER_MAX_CHARS : Nat := 256000

/-- `code\b`. -/
def endsCode : Bool :=
  match afterLiteral (js "code") text with
  | none => false
  | some rest => !rest.head?.any fun u => isLetter u || isDigit u || u == 95

/-- The name of a harmony header up to its `code`, as a regular expression finds it. -/
def harmonyHeaderName : Option JsString :=
  let rest := (afterLiteral HARMONY_CHANNEL_MARKER text).getD text
  match HARMONY_CHANNELS.findSome? fun channel => afterLiteral channel rest with
  | none => none
  | some afterChannel =>
    match afterLiteral (js "to=") (skipWhitespace afterChannel) with
    | none => none
    | some named =>
      let afterName := named.dropWhile isPlainTextToolNameChar
      if afterChannel.head?.any isWhiteSpace = true ∧ named.takeWhile isPlainTextToolNameChar ≠ [] ∧
          afterName.head?.any isWhiteSpace = true ∧ endsCode (skipWhitespace afterName) = true then
        some (named.takeWhile isPlainTextToolNameChar)
      else none

def hasExactSerializedToolCallPrefix : Bool :=
  match bracketHeader text with
  | some (name, _) => matcher.hasExactName name
  | none =>
    match xmlFunctionHeader text with
    | some (name, _) => matcher.hasExactName name
    | none => (harmonyHeaderName text).any matcher.hasExactName

def stripCompleteSerializedToolCallPrefix : Option JsString :=
  if hasExactSerializedToolCallPrefix matcher text = false then none
  else
    match findXmlishToolCallEnd text with
    | some rest => some rest
    | none =>
      match (findBracketedJsonPayloadStart text).or (findHarmonyJsonPayloadStart text) with
      | none => none
      | some payload =>
        (findJsonObjectEnd payload none).map fun length => consumeJsonToolClosingMarker (payload.drop length)

/-- The rest of the loop of `stripSerializedToolCallPrefixes`. -/
def stripSerializedToolCallPrefixesFrom : Nat → JsString → Bool → Option JsString
  | 0, current, _ =>
    some (if hasExactSerializedToolCallPrefix matcher (trimStart current) = true then [] else current)
  | count + 1, current, changed =>
    match stripCompleteSerializedToolCallPrefix matcher (trimStart current) with
    | none =>
      if changed = true ∧ hasExactSerializedToolCallPrefix matcher (trimStart current) = true then some []
      else if changed = true then some current
      else none
    | some next => if trim next = [] then some next else stripSerializedToolCallPrefixesFrom count next true

def stripSerializedToolCallPrefixes : Option JsString :=
  stripSerializedToolCallPrefixesFrom matcher 32 text false

inductive PlainTextToolCallBufferState where
  | possible
  | impossible
  | overCap
  deriving DecidableEq

def getPlainTextToolCallBufferState : PlainTextToolCallBufferState :=
  if trimStart text = [] then
    if TEXT_TOOL_CALL_BUFFER_MAX_CHARS < text.length then .impossible else .possible
  else if couldStillBeToolCall matcher (trimStart text) = false then .impossible
  else if text.length ≤ TEXT_TOOL_CALL_BUFFER_MAX_CHARS then .possible
  else if trim ((stripSerializedToolCallPrefixes matcher (trimStart text)).getD []) ≠ [] then .impossible
  else .overCap

end Tests

/-! ## Every prefix of what can become a call can -/

theorem head_prefixClosed (u : UInt16) : PrefixClosed fun text : JsString => text.head? == some u := by
  intro s t hne h ht
  obtain ⟨rest, rfl⟩ := h
  obtain ⟨v, s, rfl⟩ := exists_cons_of_ne_nil hne
  exact ht

theorem matchesLiteral_prefixClosed (fold : UInt16 → UInt16) (literal : JsString) :
    PrefixClosed fun text : JsString => matchesLiteral (text.map fold) literal :=
  fun _ _ _ h ht => matchesLiteral_of_isPrefix (h.map fold) ht

theorem couldStillBeXmlishParameterPayload_prefixClosed : PrefixClosed couldStillBeXmlishParameterPayload :=
  (matchesLiteral_prefixClosed asciiLower _).skipping

theorem couldStillBePayload_prefixClosed : PrefixClosed couldStillBePayload :=
  (head_prefixClosed LBRACE).skipping.or couldStillBeXmlishParameterPayload_prefixClosed

theorem couldStillBePayload_of_isPrefix {s t : JsString} (h : s <+: t) (ht : couldStillBePayload t) :
    couldStillBePayload s := by
  by_cases hs : s = []
  · rw [hs]
    rfl
  · exact couldStillBePayload_prefixClosed hs h ht

theorem couldStillBeLineBreak_prefixClosed : PrefixClosed couldStillBeLineBreak := by
  intro s t hne h ht
  obtain ⟨rest, rfl⟩ := h
  obtain ⟨u, s, rfl⟩ := exists_cons_of_ne_nil hne
  by_cases hcr : u = 13
  · subst hcr
    cases s with
    | nil => rfl
    | cons v s =>
      by_cases hlf : v = 10
      · subst hlf
        exact couldStillBePayload_of_isPrefix (prefix_append s rest) ht
      · rw [couldStillBeLineBreak.eq_4 _ (by simp) (by simpa using hlf)]
        rw [cons_append, cons_append, couldStillBeLineBreak.eq_4 _ (by simp) (by simpa using hlf)] at ht
        exact couldStillBePayload_of_isPrefix (prefix_append (v :: s) rest) ht
  · by_cases hlf : u = 10
    · subst hlf
      exact couldStillBePayload_of_isPrefix (prefix_append s rest) ht
    · simp [couldStillBeLineBreak, hcr, hlf] at ht

variable {matcher : PlainTextToolCallNameMatcher}

theorem closingHeader_prefixClosed {close : UInt16} {next : JsString → Bool} (hnext : PrefixClosed next)
    (hnil : next []) (name : JsString) : PrefixClosed (closingHeader matcher close next name) := by
  intro s t hne h ht
  obtain ⟨rest, rfl⟩ := h
  obtain ⟨u, s, rfl⟩ := exists_cons_of_ne_nil hne
  simp only [closingHeader, cons_append, head?_cons, tail_cons, Bool.and_eq_true] at ht ⊢
  refine ⟨ht.1, ?_⟩
  by_cases hs : s = []
  · rw [hs, hnil]
  · exact hnext hs (prefix_append s rest) ht.2

def PlainTextToolCallNameMatcher.PrefixesClosed (matcher : PlainTextToolCallNameMatcher) : Prop :=
  ∀ ⦃a b : JsString⦄, a <+: b → matcher.hasNamePrefix b = true → matcher.hasNamePrefix a = true

theorem couldStillBeBracketedStandaloneToolCall_prefixClosed (hmatcher : matcher.PrefixesClosed) :
    PrefixClosed (couldStillBeBracketedStandaloneToolCall matcher) := by
  intro s t hne h ht
  obtain ⟨hhead, ht⟩ := Bool.and_eq_true_iff.mp ht
  have hheadS := head_prefixClosed LBRACKET hne h hhead
  refine Bool.and_eq_true_iff.mpr ⟨hheadS, orLiteral_of_isPrefix ?_ h ?_ ht⟩
  · exact naming hmatcher fun name => closingHeader_prefixClosed couldStillBePayload_prefixClosed rfl name
  · intro hliteral hother
    obtain ⟨rest, rfl⟩ := h
    obtain ⟨u, s, rfl⟩ := exists_cons_of_ne_nil hne
    have hs : s ≠ [] := by
      rintro rfl
      obtain rfl : u = LBRACKET := by simpa using hheadS
      simp [matchesLiteral, js, codeUnits, LBRACKET] at hliteral
    exact naming hmatcher (fun name => closingHeader_prefixClosed
      couldStillBeLineBreak_prefixClosed.skipping rfl name) hs (prefix_append s rest) hother

theorem couldStillBeXmlishFunctionToolCall_prefixClosed (hmatcher : matcher.PrefixesClosed) :
    PrefixClosed (couldStillBeXmlishFunctionToolCall matcher) :=
  (naming hmatcher fun name =>
    closingHeader_prefixClosed couldStillBeXmlishParameterPayload_prefixClosed rfl name).thenLiteral

theorem couldStillBeHarmonyCode_prefixClosed : PrefixClosed couldStillBeHarmonyCode :=
  thenLiteral (skipping
    ((matchesLiteral_prefixClosed id _).or (head_prefixClosed LBRACE) |> fun h => by simpa using h))

theorem channel_unique {rest : JsString} (hrest : rest ≠ []) :
    ∀ channel ∈ HARMONY_CHANNELS, ∀ other ∈ HARMONY_CHANNELS, matchesLiteral rest channel →
      matchesLiteral rest other → channel = other := by
  have hhead : ∀ channel ∈ HARMONY_CHANNELS, matchesLiteral rest channel → rest.head? = channel.head? := by
    intro channel hchannel hmatches
    have hne : channel ≠ [] := by
      rintro rfl
      exact absurd hchannel (by decide)
    rcases matchesLiteral_iff.mp hmatches with ⟨more, rfl⟩ | ⟨more, rfl⟩
    · rw [head?_append_of_ne_nil _ hrest]
    · rw [head?_append_of_ne_nil _ hne]
  have hheads : ∀ channel ∈ HARMONY_CHANNELS, ∀ other ∈ HARMONY_CHANNELS, channel.head? = other.head? →
      channel = other := by decide
  exact fun channel hchannel other hother hmatches hmatches' =>
    hheads channel hchannel other hother ((hhead _ hchannel hmatches).symm.trans (hhead _ hother hmatches'))

section

variable (hmatcher : matcher.PrefixesClosed)

include hmatcher

theorem couldStillBeHarmonyTarget_prefixClosed : PrefixClosed (couldStillBeHarmonyTarget matcher) :=
  skipping (thenLiteral (naming hmatcher fun _ => skipping couldStillBeHarmonyCode_prefixClosed.and_const))

theorem couldStillBeHarmonyChannel_prefixClosed : PrefixClosed (couldStillBeHarmonyChannel matcher) := by
  intro s t hne h ht
  unfold couldStillBeHarmonyChannel at ht ⊢
  cases hfind : HARMONY_CHANNELS.find? fun candidate => matchesLiteral t candidate with
  | none => simp [hfind] at ht
  | some channel =>
    simp only [hfind] at ht
    have hchannel := mem_of_find?_eq_some hfind
    have hmatches := matchesLiteral_of_isPrefix h (find?_some hfind)
    cases hfindS : HARMONY_CHANNELS.find? fun candidate => matchesLiteral s candidate with
    | none => exact absurd hmatches (find?_eq_none.mp hfindS channel hchannel)
    | some channelS =>
      obtain rfl := channel_unique hne channelS (mem_of_find?_eq_some hfindS) channel hchannel
        (find?_some hfindS) hmatches
      by_cases hs : s.length ≤ channelS.length
      · simp [hs]
      · have hnext := next_of_isPrefix (couldStillBeHarmonyTarget_prefixClosed hmatcher) h (not_le.mp hs) ht
        simp only [hnext, Bool.or_true]

theorem couldStillBeHarmonyStandaloneToolCall_prefixClosed :
    PrefixClosed (couldStillBeHarmonyStandaloneToolCall matcher) :=
  (couldStillBeHarmonyChannel_prefixClosed hmatcher).orLiteral (couldStillBeHarmonyChannel_prefixClosed hmatcher)

theorem couldStillBeToolCall_prefixClosed : PrefixClosed (couldStillBeToolCall matcher) :=
  ((couldStillBeBracketedStandaloneToolCall_prefixClosed hmatcher).or
    (couldStillBeXmlishFunctionToolCall_prefixClosed hmatcher)).or
      (couldStillBeHarmonyStandaloneToolCall_prefixClosed hmatcher)

theorem getPlainTextToolCallBufferState_of_isPrefix {s t : JsString} (h : s <+: t)
    (hcap : t.length ≤ TEXT_TOOL_CALL_BUFFER_MAX_CHARS)
    (ht : getPlainTextToolCallBufferState matcher t ≠ .impossible) :
    getPlainTextToolCallBufferState matcher s = .possible := by
  have hcapS : s.length ≤ TEXT_TOOL_CALL_BUFFER_MAX_CHARS := h.length_le.trans hcap
  by_cases hs : trimStart s = []
  · simp [getPlainTextToolCallBufferState, hs, not_lt.mpr hcapS]
  · obtain ⟨-, htrim⟩ := dropWhile_isPrefix h hs
    have htrimT : trimStart t ≠ [] := fun hnil => hs (prefix_nil.mp (hnil ▸ htrim))
    have hviable : couldStillBeToolCall matcher (trimStart t) := by
      by_contra hfalse
      exact ht (by simp [getPlainTextToolCallBufferState, htrimT, hfalse])
    have hviableS := couldStillBeToolCall_prefixClosed hmatcher hs htrim hviable
    simp [getPlainTextToolCallBufferState, hs, hviableS, hcapS]

end

end ClawWorks.ToolCallRepair
