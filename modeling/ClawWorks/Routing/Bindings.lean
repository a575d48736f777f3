import ClawWorks.Routing.SessionKey

/-!
# Route bindings

The configured bindings, evaluated for one channel and account and sorted into the lists that the tiers of a route look
through.
-/

namespace ClawWorks.Routing

structure BindingPeer where
  kind : Option JsString
  id : Option JsString

structure AgentBindingMatch where
  channel : Option JsString := none
  accountId : Option JsString := none
  peer : Option BindingPeer := none
  guildId : Option JsString := none
  teamId : Option JsString := none
  roles : Option (List JsString) := none

/-- A configured binding; one of type `acp` is no route binding. -/
structure AgentBinding where
  isAcp : Bool := false
  agentId : JsString
  bindingMatch : Option AgentBindingMatch
  sessionDmScope : Option DmScope := none

structure AgentEntry where
  id : Option JsString
  isDefault : Bool := false

structure RouteConfig where
  agents : List AgentEntry := []
  bindings : List AgentBinding := []
  dmScope : Option DmScope := none
  identityLinks : Option (List (JsString × List JsString)) := none

structure RoutePeer where
  kind : ChatType
  id : JsString

/-! ## Normalized matches -/

inductive NormalizedPeerConstraint where
  | none
  | invalid
  | wildcardKind (kind : ChatType)
  | valid (kind : ChatType) (id : JsString)

def NormalizedPeerConstraint.isValid : NormalizedPeerConstraint → Bool
  | .valid _ _ => true
  | _ => false

def NormalizedPeerConstraint.isWildcardKind : NormalizedPeerConstraint → Bool
  | .wildcardKind _ => true
  | _ => false

structure NormalizedBindingMatch where
  accountPattern : JsString
  peer : NormalizedPeerConstraint
  guildId : Option JsString
  teamId : Option JsString
  roles : Option (List JsString)

/-- A binding with its place among those of the configuration. -/
structure EvaluatedBinding where
  binding : AgentBinding
  bindingMatch : NormalizedBindingMatch
  order : Nat

/-- Lists by account, and the bindings of every account. -/
structure EvaluatedBindingsByChannel where
  byAccount : JsMap JsString (List EvaluatedBinding) := []
  byAnyAccount : List EvaluatedBinding := []

def ANY_ACCOUNT : JsString := js "*"

def normalizeRouteBindingId (value : Option JsString) : JsString :=
  trim (value.getD [])

/-- An absent or empty list constrains nothing. -/
def normalizeRouteBindingRoles : Option (List JsString) → Option (List JsString)
  | some (role :: roles) => some (role :: roles)
  | _ => none

section Evaluation

variable [LowerCase]

def normalizeChatType (raw : Option JsString) : Option ChatType :=
  let value := normalizeLowercaseStringOrEmpty (raw.getD [])
  if value = js "direct" ∨ value = js "dm" then some .direct
  else if value = js "group" then some .group
  else if value = js "channel" then some .channel
  else none

def normalizePeerConstraint : Option BindingPeer → NormalizedPeerConstraint
  | none => .none
  | some peer =>
    match normalizeChatType peer.kind with
    | none => .invalid
    | some kind =>
      let id := normalizeRouteBindingId peer.id
      if id = [] then .invalid else if id = js "*" then .wildcardKind kind else .valid kind id

def normalizeBindingMatch (configured : Option AgentBindingMatch) : NormalizedBindingMatch where
  accountPattern := trim ((configured.bind (·.accountId)).getD [])
  peer := normalizePeerConstraint (configured.bind (·.peer))
  guildId := truthy? (some (normalizeRouteBindingId (configured.bind (·.guildId))))
  teamId := truthy? (some (normalizeRouteBindingId (configured.bind (·.teamId))))
  roles := normalizeRouteBindingRoles (configured.bind (·.roles))

def resolveAccountPatternKey (accountPattern : JsString) : JsString :=
  if trim accountPattern = [] then DEFAULT_ACCOUNT_ID else normalizeAccountId (some accountPattern)

def addEvaluatedBinding (byChannel : JsMap JsString EvaluatedBindingsByChannel) (channel : JsString)
    (evaluated : EvaluatedBinding) : JsMap JsString EvaluatedBindingsByChannel :=
  let bucket := (byChannel.get channel).getD {}
  if evaluated.bindingMatch.accountPattern = ANY_ACCOUNT then
    byChannel.set channel { bucket with byAnyAccount := bucket.byAnyAccount ++ [evaluated] }
  else
    let accountKey := resolveAccountPatternKey evaluated.bindingMatch.accountPattern
    let existing := (bucket.byAccount.get accountKey).getD []
    byChannel.set channel { bucket with byAccount := bucket.byAccount.set accountKey (existing ++ [evaluated]) }

/-- The route bindings from the one at place `order` on. -/
def buildEvaluatedBindingsFrom :
    Nat → JsMap JsString EvaluatedBindingsByChannel → List AgentBinding → JsMap JsString EvaluatedBindingsByChannel
  | _, byChannel, [] => byChannel
  | order, byChannel, binding :: bindings =>
    let channel := normalizeLowercaseStringOrEmpty ((binding.bindingMatch.bind (·.channel)).getD [])
    if channel = [] then buildEvaluatedBindingsFrom order byChannel bindings
    else
      buildEvaluatedBindingsFrom (order + 1)
        (addEvaluatedBinding byChannel channel ⟨binding, normalizeBindingMatch binding.bindingMatch, order⟩) bindings

def buildEvaluatedBindingsByChannel (cfg : RouteConfig) : JsMap JsString EvaluatedBindingsByChannel :=
  buildEvaluatedBindingsFrom 0 [] (cfg.bindings.filter fun binding => !binding.isAcp)

def mergeEvaluatedBindingsInSourceOrder (accountScoped anyAccount : List EvaluatedBinding) : List EvaluatedBinding :=
  accountScoped.merge anyAccount fun a b => decide (a.order ≤ b.order)

def evaluateBindings (cfg : RouteConfig) (channel accountId : JsString) : List EvaluatedBinding :=
  let channelBindings := (buildEvaluatedBindingsByChannel cfg).get channel
  mergeEvaluatedBindingsInSourceOrder ((channelBindings.bind (·.byAccount.get accountId)).getD [])
    ((channelBindings.map (·.byAnyAccount)).getD [])

end Evaluation

structure EvaluatedBindingsIndex where
  byPeer : JsMap JsString (List EvaluatedBinding) := []
  byPeerWildcard : List EvaluatedBinding := []
  byGuildWithRoles : JsMap JsString (List EvaluatedBinding) := []
  byGuild : JsMap JsString (List EvaluatedBinding) := []
  byTeam : JsMap JsString (List EvaluatedBinding) := []
  byAccount : List EvaluatedBinding := []
  byChannel : List EvaluatedBinding := []

def pushToIndexMap (map : JsMap JsString (List EvaluatedBinding)) (key : JsString) (binding : EvaluatedBinding) :
    JsMap JsString (List EvaluatedBinding) :=
  if key = [] then map else map.set key ((map.get key).getD [] ++ [binding])

def peerLookupKeys (kind : ChatType) (id : JsString) : List JsString :=
  match kind with
  | .group => [js "group:" ++ id, js "channel:" ++ id]
  | .channel => [js "channel:" ++ id, js "group:" ++ id]
  | .direct => [js "direct:" ++ id]

def addToIndex (index : EvaluatedBindingsIndex) (binding : EvaluatedBinding) : EvaluatedBindingsIndex :=
  match binding.bindingMatch.peer with
  | .valid kind id =>
    { index with byPeer := (peerLookupKeys kind id).foldl (fun map key => pushToIndexMap map key binding) index.byPeer }
  | .wildcardKind _ => { index with byPeerWildcard := index.byPeerWildcard ++ [binding] }
  | _ =>
    match binding.bindingMatch.guildId, binding.bindingMatch.roles with
    | some guildId, some _ => { index with byGuildWithRoles := pushToIndexMap index.byGuildWithRoles guildId binding }
    | some guildId, none => { index with byGuild := pushToIndexMap index.byGuild guildId binding }
    | none, _ =>
      match binding.bindingMatch.teamId with
      | some teamId => { index with byTeam := pushToIndexMap index.byTeam teamId binding }
      | none =>
        if binding.bindingMatch.accountPattern ≠ ANY_ACCOUNT then
          { index with byAccount := index.byAccount ++ [binding] }
        else { index with byChannel := index.byChannel ++ [binding] }

def buildEvaluatedBindingsIndex (bindings : List EvaluatedBinding) : EvaluatedBindingsIndex :=
  bindings.foldl addToIndex {}

def collectPeerIndexedBindings (index : EvaluatedBindingsIndex) : Option RoutePeer → List EvaluatedBinding
  | none => []
  | some peer =>
    ((peerLookupKeys peer.kind peer.id).flatMap fun key => (index.byPeer.get key).getD []).foldl (fun out candidate =>
        if (out.any fun seen => seen.order == candidate.order) = true then out else out ++ [candidate])
      []

structure BindingScope where
  peer : Option RoutePeer
  guildId : JsString
  teamId : JsString
  memberRoleIds : List JsString

def peerKindMatches (bindingKind scopeKind : ChatType) : Bool :=
  decide (bindingKind = scopeKind) || (decide (bindingKind = .group) && decide (scopeKind = .channel)) ||
    (decide (bindingKind = .channel) && decide (scopeKind = .group))

def scopeIdMatches (constraint : Option JsString) (exact groupSpace : JsString) : Bool :=
  match truthy? constraint with
  | none => true
  | some id => id == exact || id == groupSpace

def routeBindingScopeMatches (constraint : NormalizedBindingMatch) (scope : BindingScope) : Bool :=
  if scopeIdMatches constraint.guildId (trim scope.guildId) [] = false then false
  else if scopeIdMatches constraint.teamId (trim scope.teamId) [] = false then false
  else
    match normalizeRouteBindingRoles constraint.roles with
    | none => true
    | some roles => roles.any fun role => decide (role ∈ scope.memberRoleIds)

def matchesBindingScope (bindingMatch : NormalizedBindingMatch) (scope : BindingScope) : Bool :=
  match bindingMatch.peer with
  | .invalid => false
  | .none => routeBindingScopeMatches bindingMatch scope
  | .valid kind id =>
    (scope.peer.any fun peer => peerKindMatches kind peer.kind && peer.id == id) &&
      routeBindingScopeMatches bindingMatch scope
  | .wildcardKind kind =>
    (scope.peer.any fun peer => peerKindMatches kind peer.kind) && routeBindingScopeMatches bindingMatch scope

end ClawWorks.Routing
