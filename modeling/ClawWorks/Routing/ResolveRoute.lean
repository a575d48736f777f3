import ClawWorks.Lib.Memo
import ClawWorks.Routing.Bindings

/-!
# Resolving routes

The configuration is one and unchanged, so what is looked up once for it (the bindings by channel, the agents by id) is
computed.
-/

namespace ClawWorks.Routing

/-! ## Requests and routes -/

structure ResolveAgentRouteInput where
  channel : JsString
  accountId : Option JsString := none
  peer : Option RoutePeer := none
  parentPeer : Option RoutePeer := none
  guildId : Option JsString := none
  teamId : Option JsString := none
  memberRoleIds : Option (List JsString) := none
  /-- `shouldLogVerbose()` at the time of the call. -/
  verbose : Bool := false

inductive MatchedBy where
  | bindingPeer
  | bindingPeerParent
  | bindingPeerWildcard
  | bindingGuildRoles
  | bindingGuild
  | bindingTeam
  | bindingAccount
  | bindingChannel
  | default
  deriving DecidableEq

inductive LastRoutePolicy where
  | main
  | session

structure ResolvedAgentRoute where
  agentId : JsString
  channel : JsString
  accountId : JsString
  sessionKey : JsString
  mainSessionKey : JsString
  lastRoutePolicy : LastRoutePolicy
  matchedBy : MatchedBy

/-- An input, normalized. -/
structure RouteRequest where
  channel : JsString
  accountId : JsString
  peer : Option RoutePeer
  parentPeer : Option RoutePeer
  guildId : JsString
  teamId : JsString
  memberRoleIds : List JsString

section Route

variable [LowerCase]

def normalizeRoutePeer (peer : RoutePeer) : RoutePeer :=
  { peer with id := normalizeRouteBindingId (some peer.id) }

def routeRequest (input : ResolveAgentRouteInput) : RouteRequest where
  channel := normalizeLowercaseStringOrEmpty input.channel
  accountId := normalizeAccountId input.accountId
  peer := input.peer.map normalizeRoutePeer
  parentPeer := input.parentPeer.map normalizeRoutePeer
  guildId := normalizeRouteBindingId input.guildId
  teamId := normalizeRouteBindingId input.teamId
  memberRoleIds := input.memberRoleIds.getD []

variable (cfg : RouteConfig)

def resolveDefaultAgentId : JsString :=
  match cfg.agents with
  | [] => DEFAULT_AGENT_ID
  | first :: _ =>
    let chosen := ((cfg.agents.find? (·.isDefault)).getD first).id
    normalizeAgentId ((truthy? (chosen.map trim)).getD DEFAULT_AGENT_ID)

def agentsByNormalizedId : JsMap JsString JsString :=
  cfg.agents.foldl (fun byId agent =>
    match truthy? (agent.id.map trim) with
    | none => byId
    | some rawId => byId.set (normalizeAgentId rawId) (normalizeAgentId rawId)) []

def pickFirstExistingAgentId (agentId : JsString) : JsString :=
  let fallbackDefaultAgentId := normalizeAgentId (resolveDefaultAgentId cfg)
  let trimmed := trim agentId
  if trimmed = [] then fallbackDefaultAgentId
  else if agentsByNormalizedId cfg = [] then normalizeAgentId trimmed
  else (truthy? ((agentsByNormalizedId cfg).get (normalizeAgentId trimmed))).getD fallbackDefaultAgentId

/-! ## Routes -/

def buildAgentSessionKey (agentId channel accountId : JsString) (peer : Option RoutePeer) (dmScope : DmScope)
    (identityLinks : Option (List (JsString × List JsString))) : JsString :=
  buildAgentPeerSessionKey {
    agentId := agentId
    mainKey := DEFAULT_MAIN_KEY
    channel := sessionChannel channel
    accountId := some accountId
    peerKind := (peer.map (·.kind)).getD .direct
    peerId := peer.map fun peer => (truthy? (some (normalizeRouteBindingId (some peer.id)))).getD (js "unknown")
    identityLinks := identityLinks
    dmScope := dmScope }

def deriveLastRoutePolicy (sessionKey mainSessionKey : JsString) : LastRoutePolicy :=
  if sessionKey = mainSessionKey then .main else .session

variable (request : RouteRequest)

def choose (agentId : JsString) (matchedBy : MatchedBy) (sessionDmScope : Option DmScope) : ResolvedAgentRoute :=
  let resolvedAgentId := pickFirstExistingAgentId cfg agentId
  let sessionKey := buildAgentSessionKey resolvedAgentId request.channel request.accountId request.peer
    (sessionDmScope.getD (cfg.dmScope.getD .main)) cfg.identityLinks
  let mainSessionKey :=
    normalizeLowercaseStringOrEmpty (buildAgentMainSessionKey resolvedAgentId DEFAULT_MAIN_KEY)
  { agentId := resolvedAgentId
    channel := request.channel
    accountId := request.accountId
    sessionKey := sessionKey
    mainSessionKey := mainSessionKey
    lastRoutePolicy := deriveLastRoutePolicy sessionKey mainSessionKey
    matchedBy := matchedBy }

/-- One way in which a binding may match. -/
structure RouteTier where
  matchedBy : MatchedBy
  enabled : Bool
  scopePeer : Option RoutePeer
  candidates : List EvaluatedBinding
  predicate : EvaluatedBinding → Bool

/-- A parent peer, unless its id is empty. -/
def namedPeer (peer : Option RoutePeer) : Option RoutePeer :=
  peer.filter fun peer => peer.id ≠ []

def routeTiers (index : EvaluatedBindingsIndex) (request : RouteRequest) : List RouteTier :=
  let byId := fun (map : JsMap JsString (List EvaluatedBinding)) (id : JsString) =>
    if id = [] then [] else (map.get id).getD []
  [{ matchedBy := .bindingPeer
     enabled := request.peer.isSome
     scopePeer := request.peer
     candidates := collectPeerIndexedBindings index request.peer
     predicate := fun candidate => candidate.bindingMatch.peer.isValid },
   { matchedBy := .bindingPeerParent
     enabled := (namedPeer request.parentPeer).isSome
     scopePeer := namedPeer request.parentPeer
     candidates := collectPeerIndexedBindings index request.parentPeer
     predicate := fun candidate => candidate.bindingMatch.peer.isValid },
   { matchedBy := .bindingPeerWildcard
     enabled := request.peer.isSome
     scopePeer := request.peer
     candidates := index.byPeerWildcard
     predicate := fun candidate => candidate.bindingMatch.peer.isWildcardKind },
   { matchedBy := .bindingGuildRoles
     enabled := decide (request.guildId ≠ [] ∧ request.memberRoleIds ≠ [])
     scopePeer := request.peer
     candidates := byId index.byGuildWithRoles request.guildId
     predicate := fun candidate => candidate.bindingMatch.guildId.isSome && candidate.bindingMatch.roles.isSome },
   { matchedBy := .bindingGuild
     enabled := decide (request.guildId ≠ [])
     scopePeer := request.peer
     candidates := byId index.byGuild request.guildId
     predicate := fun candidate => candidate.bindingMatch.guildId.isSome && candidate.bindingMatch.roles.isNone },
   { matchedBy := .bindingTeam
     enabled := decide (request.teamId ≠ [])
     scopePeer := request.peer
     candidates := byId index.byTeam request.teamId
     predicate := fun candidate => candidate.bindingMatch.teamId.isSome },
   { matchedBy := .bindingAccount
     enabled := true
     scopePeer := request.peer
     candidates := index.byAccount
     predicate := fun candidate => decide (candidate.bindingMatch.accountPattern ≠ ANY_ACCOUNT) },
   { matchedBy := .bindingChannel
     enabled := true
     scopePeer := request.peer
     candidates := index.byChannel
     predicate := fun candidate => decide (candidate.bindingMatch.accountPattern = ANY_ACCOUNT) }]

def RouteTier.match? (tier : RouteTier) : Option (MatchedBy × AgentBinding) :=
  if tier.enabled = true then
    (tier.candidates.find? fun candidate => tier.predicate candidate && matchesBindingScope candidate.bindingMatch
        ⟨tier.scopePeer, request.guildId, request.teamId, request.memberRoleIds⟩).map
      fun candidate => (tier.matchedBy, candidate.binding)
  else none

def routeOver (index : EvaluatedBindingsIndex) (request : RouteRequest) : ResolvedAgentRoute :=
  match (routeTiers index request).findSome? (RouteTier.match? request) with
  | some (matchedBy, binding) => choose cfg request binding.agentId matchedBy binding.sessionDmScope
  | none => choose cfg request (resolveDefaultAgentId cfg) .default none

def route : ResolvedAgentRoute :=
  routeOver cfg (buildEvaluatedBindingsIndex (evaluateBindings cfg request.channel request.accountId)) request

/-! ## Caches -/

def TAB : UInt16 := 9

def MAX_EVALUATED_BINDINGS_CACHE_KEYS : Nat := 2000
def MAX_RESOLVED_ROUTE_CACHE_KEYS : Nat := 4000

structure RouteCaches where
  byChannelAccount : JsMap JsString (List EvaluatedBinding) := []
  byChannelAccountIndex : JsMap JsString EvaluatedBindingsIndex := []
  resolvedRoutes : JsMap JsString ResolvedAgentRoute := []

def channelAccountKey (channel accountId : JsString) : JsString :=
  channel ++ [TAB] ++ accountId

variable (caches : RouteCaches)

def getEvaluatedBindingsForChannelAccount (channel accountId : JsString) : RouteCaches × List EvaluatedBinding :=
  let cacheKey := channelAccountKey channel accountId
  match caches.byChannelAccount.get cacheKey with
  | some hit => (caches, hit)
  | none =>
    let evaluated := evaluateBindings cfg channel accountId
    let byChannelAccount := caches.byChannelAccount.set cacheKey evaluated
    let byChannelAccountIndex := caches.byChannelAccountIndex.set cacheKey (buildEvaluatedBindingsIndex evaluated)
    if MAX_EVALUATED_BINDINGS_CACHE_KEYS < byChannelAccount.length then
      ({ caches with
          byChannelAccount := [(cacheKey, evaluated)]
          byChannelAccountIndex := [(cacheKey, buildEvaluatedBindingsIndex evaluated)] }, evaluated)
    else
      ({ caches with byChannelAccount := byChannelAccount, byChannelAccountIndex := byChannelAccountIndex },
        evaluated)

def getEvaluatedBindingIndexForChannelAccount (channel accountId : JsString) : RouteCaches × EvaluatedBindingsIndex :=
  let (caches, bindings) := getEvaluatedBindingsForChannelAccount cfg caches channel accountId
  let cacheKey := channelAccountKey channel accountId
  match caches.byChannelAccountIndex.get cacheKey with
  | some indexed => (caches, indexed)
  | none =>
    let built := buildEvaluatedBindingsIndex bindings
    ({ caches with byChannelAccountIndex := caches.byChannelAccountIndex.set cacheKey built }, built)

def formatRouteCachePeer (peer : Option RoutePeer) : JsString :=
  match namedPeer peer with
  | none => js "-"
  | some peer => peer.kind.text ++ js ":" ++ peer.id

/-- Two roles are put in order by hand, more are sorted, which comes to the same. -/
def formatRoleIdsCacheKey (roleIds : List JsString) : JsString :=
  if roleIds = [] then js "-" else [(44 : UInt16)].intercalate (roleIds.mergeSort fun a b => decide (a ≤ b))

def orDash (id : JsString) : JsString :=
  if id = [] then js "-" else id

def routeCacheKeyParts (dmScope : DmScope) : List JsString :=
  [request.channel, request.accountId, formatRouteCachePeer request.peer, formatRouteCachePeer request.parentPeer,
    orDash request.guildId, orDash request.teamId, formatRoleIdsCacheKey request.memberRoleIds, dmScope.text]

def buildResolvedRouteCacheKey (dmScope : DmScope) : JsString :=
  [TAB].intercalate (routeCacheKeyParts request dmScope)

/-- `routeCache.set(key, route)`; a full cache starts anew. -/
def rememberRoute (routes : JsMap JsString ResolvedAgentRoute) (key : JsString) (resolved : ResolvedAgentRoute) :
    JsMap JsString ResolvedAgentRoute :=
  let routes := routes.set key resolved
  if MAX_RESOLVED_ROUTE_CACHE_KEYS < routes.length then [(key, resolved)] else routes

def computeRoute (request : RouteRequest) : RouteCaches × ResolvedAgentRoute :=
  let caches := (getEvaluatedBindingsForChannelAccount cfg caches request.channel request.accountId).1
  let indexed := getEvaluatedBindingIndexForChannelAccount cfg caches request.channel request.accountId
  (indexed.1, routeOver cfg indexed.2 request)

def resolveAgentRoute (input : ResolveAgentRouteInput) : RouteCaches × ResolvedAgentRoute :=
  let request := routeRequest input
  if input.verbose = true ∨ cfg.identityLinks.isSome = true then computeRoute cfg caches request
  else
    let routeCacheKey := buildResolvedRouteCacheKey request (cfg.dmScope.getD .main)
    match caches.resolvedRoutes.get routeCacheKey with
    | some cachedRoute => (caches, cachedRoute)
    | none =>
      let computed := computeRoute cfg caches request
      ({ computed.1 with resolvedRoutes := rememberRoute computed.1.resolvedRoutes routeCacheKey computed.2 },
        computed.2)

/-- The answers to calls one after the other. -/
def resolveAgentRoutes (cfg : RouteConfig) : RouteCaches → List ResolveAgentRouteInput → List ResolvedAgentRoute
  | _, [] => []
  | caches, input :: inputs =>
    let resolved := resolveAgentRoute cfg caches input
    resolved.2 :: resolveAgentRoutes cfg resolved.1 inputs

end Route

end ClawWorks.Routing
