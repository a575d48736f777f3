import ClawWorks.Agents.ToolPolicy

/-!
# Session keys

Agent ids, account ids and the keys of sessions, as routing builds them.

- `normalizeAgentId`, `normalizeAccountId`: short lower-case ids, `idChar_of_normalizeAccountId`;
- `buildAgentPeerSessionKey`: the key of a conversation with a peer.

The memo of `normalizeAccountId` holds each result under the whole argument, so the function alone is modelled.
-/

namespace ClawWorks.Routing

/-! ## Ids -/

inductive ChatType where
  | direct
  | group
  | channel
  deriving DecidableEq

def ChatType.text : ChatType → JsString
  | .direct => js "direct"
  | .group => js "group"
  | .channel => js "channel"

inductive DmScope where
  | main
  | perPeer
  | perChannelPeer
  | perAccountChannelPeer
  deriving DecidableEq

def DmScope.text : DmScope → JsString
  | .main => js "main"
  | .perPeer => js "per-peer"
  | .perChannelPeer => js "per-channel-peer"
  | .perAccountChannelPeer => js "per-account-channel-peer"

def DEFAULT_AGENT_ID : JsString := js "main"
def DEFAULT_MAIN_KEY : JsString := js "main"
def DEFAULT_ACCOUNT_ID : JsString := js "default"

/-- `[a-z0-9_-]`. -/
def isIdChar (u : UInt16) : Bool :=
  (97 ≤ u && u ≤ 122) || isDigit u || u == 95 || u == DASH

/-- `/^[a-z0-9][a-z0-9_-]{0,63}$/i`. -/
def isValidId (value : JsString) : Bool :=
  match value with
  | [] => false
  | first :: rest =>
    (isIdChar (asciiLower first) && first != 95 && first != DASH) && rest.all (fun u => isIdChar (asciiLower u)) &&
      decide (rest.length ≤ 63)

/-- `value.replace(/[^a-z0-9_-]+/g, "-")`. -/
def replaceInvalidChars : JsString → JsString
  | [] => []
  | u :: value =>
    if isIdChar u = true then u :: replaceInvalidChars value
    else if (value.head?.any fun v => !isIdChar v) = true then replaceInvalidChars value
    else DASH :: replaceInvalidChars value

section Ids

variable [LowerCase]

/-- What both kinds of id are reduced to. -/
def canonicalizeId (value : JsString) : JsString :=
  let normalized := normalizeLowercaseStringOrEmpty value
  if isValidId value = true then normalized
  else (((replaceInvalidChars normalized).dropWhile (· == DASH)).rdropWhile (· == DASH)).take 64

def normalizeAgentId (value : JsString) : JsString :=
  let trimmed := trim value
  if trimmed = [] then DEFAULT_AGENT_ID
  else if canonicalizeId trimmed = [] then DEFAULT_AGENT_ID
  else canonicalizeId trimmed

def BLOCKED_OBJECT_KEYS : List JsString :=
  [js "__proto__", js "prototype", js "constructor"]

def normalizeAccountId (value : Option JsString) : JsString :=
  let trimmed := trim (value.getD [])
  if trimmed = [] then DEFAULT_ACCOUNT_ID
  else if canonicalizeId trimmed = [] ∨ canonicalizeId trimmed ∈ BLOCKED_OBJECT_KEYS then DEFAULT_ACCOUNT_ID
  else canonicalizeId trimmed

omit [LowerCase] in
theorem isIdChar_replaceInvalidChars {value : JsString} : ∀ u ∈ replaceInvalidChars value, isIdChar u := by
  induction value with
  | nil => exact fun _ h => nomatch h
  | cons v value ih =>
    intro u hu
    unfold replaceInvalidChars at hu
    split at hu
    · rename_i hv
      rcases List.mem_cons.mp hu with rfl | hu
      · exact hv
      · exact ih u hu
    · split at hu
      · exact ih u hu
      · rcases List.mem_cons.mp hu with rfl | hu
        · rfl
        · exact ih u hu

omit [LowerCase] in
theorem lt_of_isIdChar_asciiLower {u : UInt16} (h : isIdChar (asciiLower u)) : u < 128 := by
  rw [UInt16.lt_iff_toNat_lt]
  unfold asciiLower at h
  split at h
  · rename_i hupper
    have hhigh : u.toNat ≤ 90 := UInt16.le_iff_toNat_le.mp hupper.2
    simp
    omega
  · simp only [isIdChar, isDigit, DASH, Bool.or_eq_true, Bool.and_eq_true, decide_eq_true_eq, beq_iff_eq,
      UInt16.le_iff_toNat_le, ← UInt16.toNat_inj] at h
    simp at h ⊢
    omega

theorem idChar_of_canonicalizeId {value : JsString} (htrim : trim value = value) :
    ∀ u ∈ canonicalizeId value, isIdChar u := by
  intro u hu
  unfold canonicalizeId at hu
  simp only at hu
  split at hu
  · rename_i hvalid
    have hchars : ∀ v ∈ value, isIdChar (asciiLower v) := by
      cases value with
      | nil => exact fun _ h => nomatch h
      | cons first rest =>
        simp only [isValidId, Bool.and_eq_true, List.all_eq_true] at hvalid
        exact List.forall_mem_cons.mpr ⟨hvalid.1.1.1.1, hvalid.1.2⟩
    have hlower : normalizeLowercaseStringOrEmpty value = value.map asciiLower := by
      unfold normalizeLowercaseStringOrEmpty
      rw [htrim]
      split
      · rename_i hnil
        rw [hnil, List.map_nil]
      · exact LowerCase.ascii value fun v hv => lt_of_isIdChar_asciiLower (hchars v hv)
    rw [hlower] at hu
    obtain ⟨v, hv, rfl⟩ := List.mem_map.mp hu
    exact hchars v hv
  · have hstripped := (List.rdropWhile_prefix _ _).subset (List.mem_of_mem_take hu)
    exact isIdChar_replaceInvalidChars u ((List.dropWhile_sublist _).subset hstripped)

theorem idChar_of_normalizeAccountId (value : Option JsString) : ∀ u ∈ normalizeAccountId value, isIdChar u := by
  unfold normalizeAccountId
  simp only
  split
  · decide
  · split
    · decide
    · exact idChar_of_canonicalizeId (trim_trim _)

/-! ## Keys -/

def normalizeMainKey (value : JsString) : JsString :=
  let normalized := normalizeLowercaseStringOrEmpty value
  if normalized = [] then DEFAULT_MAIN_KEY else normalized

def buildAgentMainSessionKey (agentId mainKey : JsString) : JsString :=
  js "agent:" ++ normalizeAgentId agentId ++ js ":" ++ normalizeMainKey mainKey

/-- The channels and kinds of peer whose ids are case-sensitive. -/
def CASE_PRESERVING_PEERS : List (JsString × List ChatType) :=
  [(js "signal", [.group]), (js "matrix", [.channel, .group])]

def isCasePreservingPeer (channel : JsString) (peerKind : ChatType) : Bool :=
  CASE_PRESERVING_PEERS.any fun descriptor =>
    descriptor.1 == normalizeLowercaseStringOrEmpty channel && decide (peerKind ∈ descriptor.2)

def normalizeSessionPeerId (channel : JsString) (peerKind : ChatType) (peerId : Option JsString) : JsString :=
  let peerId := trim (peerId.getD [])
  if peerId = [] then []
  else if isCasePreservingPeer channel peerKind = true then peerId
  else normalizeLowercaseStringOrEmpty peerId

def resolveLinkedPeerId (identityLinks : Option (List (JsString × List JsString))) (channel peerId : JsString) :
    Option JsString :=
  match identityLinks with
  | none => none
  | some links =>
    let peerId := trim peerId
    if peerId = [] then none
    else
      let scopedCandidate :=
        normalizeLowercaseStringOrEmpty (normalizeLowercaseStringOrEmpty channel ++ js ":" ++ peerId)
      let candidates := ([normalizeLowercaseStringOrEmpty peerId] ++
        if normalizeLowercaseStringOrEmpty channel = [] then [] else [scopedCandidate]).filter (· ≠ [])
      (links.find? fun entry => decide (trim entry.1 ≠ []) && entry.2.any fun id =>
        decide (normalizeLowercaseStringOrEmpty id ≠ [] ∧ normalizeLowercaseStringOrEmpty id ∈ candidates)).map
          fun entry => trim entry.1

/-- `normalizeLowercaseStringOrEmpty(channel) || "unknown"`. -/
def sessionChannel (channel : JsString) : JsString :=
  let normalized := normalizeLowercaseStringOrEmpty channel
  if normalized = [] then js "unknown" else normalized

structure PeerSessionKeyParams where
  agentId : JsString
  mainKey : JsString
  channel : JsString
  accountId : Option JsString
  peerKind : ChatType
  peerId : Option JsString
  identityLinks : Option (List (JsString × List JsString))
  dmScope : DmScope

def buildAgentPeerSessionKey (params : PeerSessionKeyParams) : JsString :=
  let agent := js "agent:" ++ normalizeAgentId params.agentId ++ js ":"
  match params.peerKind with
  | .direct =>
    let peerId := trim (params.peerId.getD [])
    let linkedPeerId :=
      if params.dmScope = .main then none else resolveLinkedPeerId params.identityLinks params.channel peerId
    let peerId := normalizeLowercaseStringOrEmpty (linkedPeerId.getD peerId)
    if peerId = [] then buildAgentMainSessionKey params.agentId params.mainKey
    else
      match params.dmScope with
      | .perAccountChannelPeer =>
        agent ++ sessionChannel params.channel ++ js ":" ++ normalizeAccountId params.accountId ++ js ":direct:" ++
          peerId
      | .perChannelPeer => agent ++ sessionChannel params.channel ++ js ":direct:" ++ peerId
      | .perPeer => agent ++ js "direct:" ++ peerId
      | .main => buildAgentMainSessionKey params.agentId params.mainKey
  | peerKind =>
    let peerId := normalizeSessionPeerId params.channel peerKind params.peerId
    agent ++ sessionChannel params.channel ++ js ":" ++ peerKind.text ++ js ":" ++
      if peerId = [] then js "unknown" else peerId

end Ids

end ClawWorks.Routing
