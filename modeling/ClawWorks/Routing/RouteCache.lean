import ClawWorks.Routing.ResolveRoute

/-!
# The route cache
-/

namespace ClawWorks.Routing

open List Memo RouteTier

/-! ## The cached bindings -/

theorem channelAccountKey_inj {channel channel' accountId accountId' : JsString} (hid : TAB ∉ accountId)
    (hid' : TAB ∉ accountId') (h : channelAccountKey channel accountId = channelAccountKey channel' accountId') :
    channel = channel' ∧ accountId = accountId' := by
  simp only [channelAccountKey, append_assoc, singleton_append] at h
  rcases append_eq_append_iff.mp h with ⟨rest, hchannel, hrest⟩ | ⟨rest, hchannel, hrest⟩
  · cases rest with
    | nil => exact ⟨by rw [hchannel, append_nil], (cons.inj hrest).2⟩
    | cons u rest =>
      refine absurd ?_ hid
      rw [(cons.inj hrest).2]
      exact mem_append_right rest mem_cons_self
  · cases rest with
    | nil => exact ⟨by rw [hchannel, append_nil], (cons.inj hrest).2.symm⟩
    | cons u rest =>
      refine absurd ?_ hid'
      rw [(cons.inj hrest).2]
      exact mem_append_right rest mem_cons_self

section Caches

variable [LowerCase]

theorem tab_notMem_normalizeAccountId (value : Option JsString) : TAB ∉ normalizeAccountId value := by
  intro h
  have hchar := idChar_of_normalizeAccountId value TAB h
  exact absurd hchar (by decide)

/-- The channels and accounts whose keys are told apart. -/
def keyedAccounts : Set (JsString × JsString) := {question | TAB ∉ question.2}

/-- The cached bindings are those of their channel and account. -/
structure BindingsCached (cfg : RouteConfig) (caches : RouteCaches) : Prop where
  bindings : Remembers keyedAccounts (fun question => channelAccountKey question.1 question.2)
    (fun question => evaluateBindings cfg question.1 question.2) caches.byChannelAccount
  index : Remembers keyedAccounts (fun question => channelAccountKey question.1 question.2)
    (fun question => buildEvaluatedBindingsIndex (evaluateBindings cfg question.1 question.2))
    caches.byChannelAccountIndex

variable {cfg : RouteConfig} {caches : RouteCaches} {accountId : JsString}

theorem bindingsCached_empty : BindingsCached cfg {} := ⟨remembers_nil, remembers_nil⟩

theorem getEvaluatedBindingsForChannelAccount_spec (channel : JsString) (h : BindingsCached cfg caches)
    (hid : TAB ∉ accountId) :
    (getEvaluatedBindingsForChannelAccount cfg caches channel accountId).2 = evaluateBindings cfg channel accountId ∧
      BindingsCached cfg (getEvaluatedBindingsForChannelAccount cfg caches channel accountId).1 ∧
      (getEvaluatedBindingsForChannelAccount cfg caches channel accountId).1.resolvedRoutes =
        caches.resolvedRoutes := by
  have hasked : (channel, accountId) ∈ keyedAccounts := hid
  unfold getEvaluatedBindingsForChannelAccount
  simp only
  split
  · rename_i hit hget
    refine ⟨?_, h, rfl⟩
    refine h.bindings.answer (channel, accountId) (fun other hother hkey => ?_) (JsMap.mem_of_get hget)
    obtain ⟨hchannel, haccount⟩ := channelAccountKey_inj hother hid hkey
    rw [hchannel, haccount]
  · split
    · exact ⟨rfl, ⟨h.bindings.insert hasked fun _ he => .inl (mem_singleton.mp he),
        h.index.insert hasked fun _ he => .inl (mem_singleton.mp he)⟩, rfl⟩
    · exact ⟨rfl, ⟨h.bindings.insert hasked fun _ he => JsMap.mem_set he,
        h.index.insert hasked fun _ he => JsMap.mem_set he⟩, rfl⟩

theorem getEvaluatedBindingIndexForChannelAccount_spec (channel : JsString) (h : BindingsCached cfg caches)
    (hid : TAB ∉ accountId) : (getEvaluatedBindingIndexForChannelAccount cfg caches channel accountId).2 =
        buildEvaluatedBindingsIndex (evaluateBindings cfg channel accountId) ∧
      BindingsCached cfg (getEvaluatedBindingIndexForChannelAccount cfg caches channel accountId).1 ∧
      (getEvaluatedBindingIndexForChannelAccount cfg caches channel accountId).1.resolvedRoutes =
        caches.resolvedRoutes := by
  have hasked : (channel, accountId) ∈ keyedAccounts := hid
  obtain ⟨hbindings, hcached, hroutes⟩ := getEvaluatedBindingsForChannelAccount_spec channel h hid
  unfold getEvaluatedBindingIndexForChannelAccount
  simp only
  split
  · rename_i indexed hget
    refine ⟨?_, hcached, hroutes⟩
    refine hcached.index.answer (channel, accountId) (fun other hother hkey => ?_) (JsMap.mem_of_get hget)
    obtain ⟨hchannel, haccount⟩ := channelAccountKey_inj hother hid hkey
    rw [hchannel, haccount]
  · refine ⟨by rw [hbindings], ⟨hcached.bindings, hcached.index.insert hasked fun _ he => ?_⟩, hroutes⟩
    rw [hbindings] at he
    exact JsMap.mem_set he

theorem computeRoute_eq (h : BindingsCached cfg caches) (input : ResolveAgentRouteInput) :
    (computeRoute cfg caches (routeRequest input)).2 = route cfg (routeRequest input) ∧
      BindingsCached cfg (computeRoute cfg caches (routeRequest input)).1 ∧
      (computeRoute cfg caches (routeRequest input)).1.resolvedRoutes = caches.resolvedRoutes := by
  have hid : TAB ∉ (routeRequest input).accountId := tab_notMem_normalizeAccountId _
  obtain ⟨-, hcached, hroutes⟩ := getEvaluatedBindingsForChannelAccount_spec (routeRequest input).channel h hid
  obtain ⟨hindex, hcached', hroutes'⟩ :=
    getEvaluatedBindingIndexForChannelAccount_spec (routeRequest input).channel hcached hid
  unfold computeRoute
  simp only
  exact ⟨by rw [hindex, route], hcached', hroutes'.trans hroutes⟩

/-- Requests that no tier and no session key tells apart. -/
structure RoutesAlike (a b : RouteRequest) : Prop where
  channel : a.channel = b.channel
  accountId : a.accountId = b.accountId
  peer : a.peer = b.peer
  parentPeer : namedPeer a.parentPeer = namedPeer b.parentPeer
  guildId : a.guildId = b.guildId
  teamId : a.teamId = b.teamId
  memberRoleIds : ∀ role, role ∈ a.memberRoleIds ↔ role ∈ b.memberRoleIds

variable {a b : RouteRequest}

omit [LowerCase] in
theorem matchesBindingScope_congr (bindingMatch : NormalizedBindingMatch) (peer : Option RoutePeer)
    (guildId teamId : JsString) {roles roles' : List JsString} (h : ∀ role, role ∈ roles ↔ role ∈ roles') :
    matchesBindingScope bindingMatch ⟨peer, guildId, teamId, roles⟩ =
      matchesBindingScope bindingMatch ⟨peer, guildId, teamId, roles'⟩ := by
  unfold matchesBindingScope routeBindingScopeMatches
  simp only [h]

omit [LowerCase] in
theorem match?_eq_of_alike (h : RoutesAlike a b) (tier : RouteTier) : tier.match? a = tier.match? b := by
  unfold match?
  simp only [h.guildId, h.teamId, matchesBindingScope_congr _ _ _ _ h.memberRoleIds]

omit [LowerCase] in
theorem match?_parentPeer_congr (h : RoutesAlike a b) (index : EvaluatedBindingsIndex) (matchedBy : MatchedBy)
    (predicate : EvaluatedBinding → Bool) :
    match? b ⟨matchedBy, (namedPeer b.parentPeer).isSome, namedPeer b.parentPeer,
        collectPeerIndexedBindings index a.parentPeer, predicate⟩ =
      match? b ⟨matchedBy, (namedPeer b.parentPeer).isSome, namedPeer b.parentPeer,
        collectPeerIndexedBindings index b.parentPeer, predicate⟩ := by
  cases hb : namedPeer b.parentPeer with
  | none => simp [match?]
  | some peer =>
    have ha : namedPeer a.parentPeer = some peer := h.parentPeer.trans hb
    rw [(Option.filter_eq_some_iff.mp ha).1, (Option.filter_eq_some_iff.mp hb).1]

omit [LowerCase] in
theorem findSome?_routeTiers_eq_of_alike (h : RoutesAlike a b) (index : EvaluatedBindingsIndex) :
    (routeTiers index a).findSome? (match? a) = (routeTiers index b).findSome? (match? b) := by
  have hnone : a.memberRoleIds = [] ↔ b.memberRoleIds = [] := by
    simp only [eq_nil_iff_forall_not_mem, h.memberRoleIds]
  rw [show match? a = match? b from funext (match?_eq_of_alike h)]
  unfold routeTiers
  simp only [h.peer, h.parentPeer, h.guildId, h.teamId, ne_eq, hnone, findSome?_cons, match?_parentPeer_congr h]

theorem route_eq_of_alike (h : RoutesAlike a b) : route cfg a = route cfg b := by
  have hchoose : choose cfg a = choose cfg b := by
    funext agentId matchedBy sessionDmScope
    unfold choose
    rw [h.channel, h.accountId, h.peer]
  unfold route routeOver
  rw [h.channel, h.accountId, findSome?_routeTiers_eq_of_alike h, hchoose]

/-! ## Calls -/

def requestKey (cfg : RouteConfig) (request : RouteRequest) : JsString :=
  buildResolvedRouteCacheKey request (cfg.dmScope.getD .main)

def usesRouteCache (cfg : RouteConfig) (input : ResolveAgentRouteInput) : Prop :=
  ¬ (input.verbose = true ∨ cfg.identityLinks.isSome = true)

def cachedRequests (cfg : RouteConfig) (inputs : List ResolveAgentRouteInput) : Set RouteRequest :=
  {request | ∃ input ∈ inputs, usesRouteCache cfg input ∧ routeRequest input = request}

/-- Requests with one key are alike. -/
def KeysTellApart (cfg : RouteConfig) (asked : Set RouteRequest) : Prop :=
  ∀ a ∈ asked, ∀ b ∈ asked, requestKey cfg a = requestKey cfg b → RoutesAlike a b

structure CachesSound (cfg : RouteConfig) (asked : Set RouteRequest) (caches : RouteCaches) : Prop where
  bindings : BindingsCached cfg caches
  routes : Remembers asked (requestKey cfg) (route cfg) caches.resolvedRoutes

variable {asked : Set RouteRequest}

theorem cachesSound_empty : CachesSound cfg asked {} := ⟨bindingsCached_empty, remembers_nil⟩

omit [LowerCase] in
theorem mem_rememberRoute {routes : JsMap JsString ResolvedAgentRoute} {key : JsString} {resolved : ResolvedAgentRoute}
    {entry : JsString × ResolvedAgentRoute} (h : entry ∈ rememberRoute routes key resolved) :
    entry = (key, resolved) ∨ entry ∈ routes := by
  unfold rememberRoute at h
  simp only at h
  split at h
  · exact .inl (mem_singleton.mp h)
  · exact JsMap.mem_set h

theorem resolveAgentRoute_sound (htells : KeysTellApart cfg asked) (h : CachesSound cfg asked caches)
    {input : ResolveAgentRouteInput} (hasked : usesRouteCache cfg input → routeRequest input ∈ asked) :
    (resolveAgentRoute cfg caches input).2 = route cfg (routeRequest input) ∧
      CachesSound cfg asked (resolveAgentRoute cfg caches input).1 := by
  obtain ⟨hroute, hcached, hroutes⟩ := computeRoute_eq h.bindings input
  have hremembered := h.routes
  rw [← hroutes] at hremembered
  unfold resolveAgentRoute
  simp only
  split
  · exact ⟨hroute, hcached, hremembered⟩
  · rename_i hcalled
    split
    · rename_i cachedRoute hget
      refine ⟨?_, h⟩
      refine h.routes.answer (routeRequest input) (fun other hother hkey => ?_) (JsMap.mem_of_get hget)
      exact route_eq_of_alike (htells other hother _ (hasked hcalled) hkey)
    · refine ⟨hroute, ⟨hcached.bindings, hcached.index⟩, hremembered.insert (hasked hcalled) fun entry hentry => ?_⟩
      rw [hroute] at hentry
      exact mem_rememberRoute hentry

theorem resolveAgentRoute_fresh (cfg : RouteConfig) (input : ResolveAgentRouteInput) :
    (resolveAgentRoute cfg {} input).2 = route cfg (routeRequest input) := by
  have hfresh : (computeRoute cfg {} (routeRequest input)).2 = _ := (computeRoute_eq bindingsCached_empty input).1
  unfold resolveAgentRoute
  simp only
  split
  · exact hfresh
  · exact hfresh

theorem resolveAgentRoutes_pair {first second : ResolveAgentRouteInput} (hfirst : usesRouteCache cfg first)
    (hsecond : usesRouteCache cfg second)
    (hkey : requestKey cfg (routeRequest first) = requestKey cfg (routeRequest second)) :
    resolveAgentRoutes cfg {} [first, second] = [route cfg (routeRequest first), route cfg (routeRequest first)] := by
  have hcached : BindingsCached cfg {} := bindingsCached_empty
  obtain ⟨hroute, -, hroutes⟩ := computeRoute_eq hcached first
  have hanswer : resolveAgentRoute cfg {} first =
      ({ (computeRoute cfg {} (routeRequest first)).1 with
          resolvedRoutes := [(requestKey cfg (routeRequest first), route cfg (routeRequest first))] },
        route cfg (routeRequest first)) := by
    unfold resolveAgentRoute
    simp only [if_neg hfirst, hroute, hroutes]
    rfl
  unfold requestKey at hkey
  unfold resolveAgentRoutes resolveAgentRoutes resolveAgentRoutes
  rw [hanswer]
  unfold resolveAgentRoute requestKey
  simp only [if_neg hsecond, ← hkey]
  rw [show JsMap.get [(buildResolvedRouteCacheKey (routeRequest first) (cfg.dmScope.getD .main),
    route cfg (routeRequest first))] (buildResolvedRouteCacheKey (routeRequest first) (cfg.dmScope.getD .main)) =
      some (route cfg (routeRequest first)) from if_pos rfl]

theorem resolveAgentRoutes_sound (htells : KeysTellApart cfg asked) {inputs : List ResolveAgentRouteInput}
    (hasked : cachedRequests cfg inputs ⊆ asked) (h : CachesSound cfg asked caches) :
    resolveAgentRoutes cfg caches inputs = inputs.map fun input => route cfg (routeRequest input) := by
  induction inputs generalizing caches with
  | nil => rfl
  | cons input inputs ih =>
    have hfirst : usesRouteCache cfg input → routeRequest input ∈ asked := fun hcalled =>
      hasked ⟨input, mem_cons_self, hcalled, rfl⟩
    have hrest : cachedRequests cfg inputs ⊆ asked := by
      rintro request ⟨other, hother, hcalled, rfl⟩
      exact hasked ⟨other, mem_cons_of_mem _ hother, hcalled, rfl⟩
    obtain ⟨hanswer, hsound⟩ := resolveAgentRoute_sound htells h hfirst
    unfold resolveAgentRoutes
    simp only
    rw [hanswer, ih hrest hsound, map_cons]

/-- **Calls one after the other answer what each would with empty caches, where the keys tell their requests apart.** -/
theorem resolveAgentRoutes_transparent (cfg : RouteConfig) (inputs : List ResolveAgentRouteInput)
    (htells : KeysTellApart cfg (cachedRequests cfg inputs)) :
    resolveAgentRoutes cfg {} inputs = inputs.map fun input => (resolveAgentRoute cfg {} input).2 := by
  rw [resolveAgentRoutes_sound htells subset_rfl cachesSound_empty]
  exact map_congr_left fun input _ => (resolveAgentRoute_fresh cfg input).symm

end Caches

/-! ## Requests whose keys tell them apart -/

section Keys

variable {cfg : RouteConfig} {asked : Set RouteRequest} {a b : RouteRequest}

def COMMA : UInt16 := 44

/-- A request without the separators and the placeholders of a key. -/
structure Delimited (request : RouteRequest) : Prop where
  channel : TAB ∉ request.channel
  accountId : TAB ∉ request.accountId
  peer : ∀ peer ∈ request.peer, peer.id ≠ [] ∧ TAB ∉ peer.id
  parentPeer : ∀ peer ∈ request.parentPeer, TAB ∉ peer.id
  guildId : TAB ∉ request.guildId ∧ request.guildId ≠ js "-"
  teamId : TAB ∉ request.teamId ∧ request.teamId ≠ js "-"
  memberRoleIds : (∀ role ∈ request.memberRoleIds, TAB ∉ role ∧ COMMA ∉ role) ∧ request.memberRoleIds ≠ [js "-"]

theorem tab_notMem_formatRouteCachePeer {peer : Option RoutePeer} (h : ∀ p ∈ peer, TAB ∉ p.id) :
    TAB ∉ formatRouteCachePeer peer := by
  unfold formatRouteCachePeer
  cases hnamed : namedPeer peer with
  | none => decide
  | some p =>
    have hid := h p (Option.filter_eq_some_iff.mp hnamed).1
    have hkind : TAB ∉ p.kind.text ++ js ":" := by cases p.kind <;> decide
    simp only [mem_append, not_or] at hkind ⊢
    exact ⟨hkind, hid⟩

theorem head?_peerText (kind : ChatType) (id : JsString) : (kind.text ++ js ":" ++ id).head? = kind.text.head? := by
  cases kind <;> rfl

theorem head?_text_ne_dash (kind : ChatType) : (js "-").head? ≠ kind.text.head? := by
  cases kind <;> decide

theorem head?_text_inj {kind kind' : ChatType} (h : kind.text.head? = kind'.text.head?) : kind = kind' := by
  cases kind <;> cases kind' <;> first | rfl | exact absurd h (by decide)

theorem formatRouteCachePeer_inj {peer peer' : Option RoutePeer}
    (h : formatRouteCachePeer peer = formatRouteCachePeer peer') : namedPeer peer = namedPeer peer' := by
  have hhead := congrArg head? h
  unfold formatRouteCachePeer at h hhead
  cases hnamed : namedPeer peer with
  | none =>
    cases hnamed' : namedPeer peer' with
    | none => rfl
    | some p' =>
      rw [hnamed, hnamed'] at hhead
      exact absurd (hhead.trans (head?_peerText _ _)) (head?_text_ne_dash _)
  | some p =>
    cases hnamed' : namedPeer peer' with
    | none =>
      rw [hnamed, hnamed'] at hhead
      exact absurd (hhead.symm.trans (head?_peerText _ _)) (head?_text_ne_dash _)
    | some p' =>
      obtain ⟨kind, id⟩ := p
      obtain ⟨kind', id'⟩ := p'
      rw [hnamed, hnamed'] at h hhead
      have hkind : kind = kind' :=
        head?_text_inj ((head?_peerText kind id).symm.trans (hhead.trans (head?_peerText kind' id')))
      subst hkind
      have hid : id = id' := append_cancel_left h
      rw [hid]

theorem orDash_inj {id id' : JsString} (hid : id ≠ js "-") (hid' : id' ≠ js "-") (h : orDash id = orDash id') :
    id = id' := by
  unfold orDash at h
  split at h <;> split at h
  · rename_i hnil hnil'
    rw [hnil, hnil']
  · exact absurd h.symm hid'
  · exact absurd h hid
  · exact h

theorem tab_notMem_orDash {id : JsString} (h : TAB ∉ id) : TAB ∉ orDash id := by
  unfold orDash
  split
  · decide
  · exact h

theorem splitOn_formatRoleIdsCacheKey {roleIds : List JsString} (hcomma : ∀ role ∈ roleIds, COMMA ∉ role)
    (hnil : roleIds ≠ []) :
    (formatRoleIdsCacheKey roleIds).splitOn COMMA = roleIds.mergeSort fun a b => decide (a ≤ b) := by
  have hperm := mergeSort_perm roleIds fun a b => decide (a ≤ b)
  unfold formatRoleIdsCacheKey
  rw [if_neg hnil]
  refine splitOn_intercalate COMMA (fun role hrole => hcomma role (hperm.mem_iff.mp hrole)) fun hsorted => hnil ?_
  rw [hsorted] at hperm
  exact hperm.symm.eq_nil

theorem formatRoleIdsCacheKey_inj {roleIds roleIds' : List JsString} (hcomma : ∀ role ∈ roleIds, COMMA ∉ role)
    (hcomma' : ∀ role ∈ roleIds', COMMA ∉ role) (hdash : roleIds ≠ [js "-"]) (hdash' : roleIds' ≠ [js "-"])
    (h : formatRoleIdsCacheKey roleIds = formatRoleIdsCacheKey roleIds') (role : JsString) :
    role ∈ roleIds ↔ role ∈ roleIds' := by
  have hplaceholder : ∀ {roles : List JsString}, (∀ role ∈ roles, COMMA ∉ role) → roles ≠ [js "-"] →
      formatRoleIdsCacheKey roles = js "-" → roles = [] := by
    intro roles hroles hne hkey
    by_contra hnil
    have hsplit := splitOn_formatRoleIdsCacheKey hroles hnil
    have hperm := mergeSort_perm roles fun a b => decide (a ≤ b)
    rw [hkey] at hsplit
    rw [← hsplit] at hperm
    exact hne (perm_singleton.mp hperm.symm)
  by_cases hnil : roleIds = []
  · subst hnil
    rw [hplaceholder hcomma' hdash' h.symm]
  · by_cases hnil' : roleIds' = []
    · subst hnil'
      exact absurd (hplaceholder hcomma hdash h) hnil
    · have hsorted := splitOn_formatRoleIdsCacheKey hcomma hnil
      rw [h, splitOn_formatRoleIdsCacheKey hcomma' hnil'] at hsorted
      rw [← (mergeSort_perm roleIds _).mem_iff, ← hsorted, (mergeSort_perm roleIds' _).mem_iff]

theorem mem_intercalate {separator : JsString} {parts : List JsString} {u : UInt16}
    (h : u ∈ separator.intercalate parts) : u ∈ separator ∨ ∃ part ∈ parts, u ∈ part := by
  induction parts with
  | nil => exact absurd h (by simp)
  | cons part parts ih =>
    cases parts with
    | nil => exact .inr ⟨part, mem_cons_self, by simpa using h⟩
    | cons next parts =>
      rw [intercalate_cons_cons] at h
      rcases mem_append.mp h with hfirst | hrest
      · rcases mem_append.mp hfirst with hpart | hsep
        · exact .inr ⟨part, mem_cons_self, hpart⟩
        · exact .inl hsep
      · rcases ih hrest with hsep | ⟨found, hfound, hmem⟩
        · exact .inl hsep
        · exact .inr ⟨found, mem_cons_of_mem _ hfound, hmem⟩

theorem tab_notMem_formatRoleIdsCacheKey {roleIds : List JsString} (h : ∀ role ∈ roleIds, TAB ∉ role) :
    TAB ∉ formatRoleIdsCacheKey roleIds := by
  unfold formatRoleIdsCacheKey
  split
  · decide
  · intro hmem
    rcases mem_intercalate hmem with hcomma | ⟨role, hrole, hmem⟩
    · exact absurd (mem_singleton.mp hcomma) (by decide)
    · exact h role ((mergeSort_perm roleIds _).mem_iff.mp hrole) hmem

theorem tab_notMem_routeCacheKeyParts {request : RouteRequest} (h : Delimited request) (dmScope : DmScope) :
    ∀ part ∈ routeCacheKeyParts request dmScope, TAB ∉ part := by
  have hscope : TAB ∉ dmScope.text := by cases dmScope <;> decide
  unfold routeCacheKeyParts
  simp only [forall_mem_cons]
  exact ⟨h.channel, h.accountId, tab_notMem_formatRouteCachePeer fun peer hpeer => (h.peer peer hpeer).2,
    tab_notMem_formatRouteCachePeer h.parentPeer, tab_notMem_orDash h.guildId.1, tab_notMem_orDash h.teamId.1,
    tab_notMem_formatRoleIdsCacheKey fun role hrole => (h.memberRoleIds.1 role hrole).1, hscope,
    fun _ h => nomatch h⟩

theorem namedPeer_eq_self {peer : Option RoutePeer} (h : ∀ p ∈ peer, p.id ≠ []) : namedPeer peer = peer := by
  cases peer with
  | none => rfl
  | some p => exact Option.filter_some_pos (decide_eq_true (h p rfl))

theorem alike_of_requestKey_eq (hdelimited : Delimited a) (hdelimited' : Delimited b)
    (hkey : requestKey cfg a = requestKey cfg b) : RoutesAlike a b := by
  have hparts := congrArg (splitOn TAB) hkey
  unfold requestKey buildResolvedRouteCacheKey at hparts
  rw [splitOn_intercalate TAB (tab_notMem_routeCacheKeyParts hdelimited _) (cons_ne_nil _ _),
    splitOn_intercalate TAB (tab_notMem_routeCacheKeyParts hdelimited' _) (cons_ne_nil _ _)] at hparts
  simp only [routeCacheKeyParts, cons.injEq, and_true] at hparts
  obtain ⟨hchannel, haccount, hpeer, hparent, hguild, hteam, hroles⟩ := hparts
  have hnamed := formatRouteCachePeer_inj hpeer
  rw [namedPeer_eq_self fun p hp => (hdelimited.peer p hp).1,
    namedPeer_eq_self fun p hp => (hdelimited'.peer p hp).1] at hnamed
  exact ⟨hchannel, haccount, hnamed, formatRouteCachePeer_inj hparent,
    orDash_inj hdelimited.guildId.2 hdelimited'.guildId.2 hguild,
    orDash_inj hdelimited.teamId.2 hdelimited'.teamId.2 hteam,
    formatRoleIdsCacheKey_inj (fun role hrole => (hdelimited.memberRoleIds.1 role hrole).2)
      (fun role hrole => (hdelimited'.memberRoleIds.1 role hrole).2) hdelimited.memberRoleIds.2
      hdelimited'.memberRoleIds.2 hroles⟩

theorem delimited_keysTellApart (h : ∀ request ∈ asked, Delimited request) : KeysTellApart cfg asked :=
  fun a ha b hb hkey => alike_of_requestKey_eq (h a ha) (h b hb) hkey

end Keys

section Calls

attribute [local instance] asciiLowerCase

/-- Direct messages on one channel go to an agent of their own. -/
def directConfig : RouteConfig where
  bindings := [{
    agentId := js "b"
    bindingMatch := some {
      channel := some (js "chat")
      peer := some { kind := some (js "direct"), id := some (js "*") } } }]

def directFrom (id : JsString) : ResolveAgentRouteInput where
  channel := js "chat"
  peer := some { kind := .direct, id := id }

theorem direct_calls_transparent :
    resolveAgentRoutes directConfig {} [directFrom (js "1"), directFrom (js "2"), directFrom (js "1")] =
      [directFrom (js "1"), directFrom (js "2"), directFrom (js "1")].map fun input =>
        (resolveAgentRoute directConfig {} input).2 := by
  refine resolveAgentRoutes_transparent _ _ (delimited_keysTellApart ?_)
  rintro request ⟨input, hinput, -, rfl⟩
  simp only [mem_cons, not_mem_nil, or_false] at hinput
  rcases hinput with rfl | rfl | rfl <;> exact ⟨by decide, by decide, by decide, by decide, by decide, by decide,
    by decide⟩

theorem directConfig_bindings : evaluateBindings directConfig (js "chat") DEFAULT_ACCOUNT_ID = [{
      binding := {
        agentId := js "b"
        bindingMatch := some {
          channel := some (js "chat")
          peer := some { kind := some (js "direct"), id := some (js "*") } } }
      bindingMatch := ⟨[], .wildcardKind .direct, none, none, none⟩
      order := 0 }] :=
  merge_right _

/-- After a call without a peer, a direct message whose id is empty gets the remembered route of that call. -/
theorem empty_peer_id_answered_from_cache :
    ¬ ∀ (cfg : RouteConfig) (inputs : List ResolveAgentRouteInput),
      resolveAgentRoutes cfg {} inputs = inputs.map fun input => (resolveAgentRoute cfg {} input).2 := by
  intro h
  have hrun := h directConfig [{ channel := js "chat" }, directFrom []]
  rw [resolveAgentRoutes_pair (by unfold usesRouteCache; decide) (by unfold usesRouteCache; decide) (by decide)] at hrun
  simp only [map_cons, map_nil, cons.injEq, resolveAgentRoute_fresh, and_true, true_and] at hrun
  have hmatched := congrArg ResolvedAgentRoute.matchedBy hrun
  unfold route at hmatched
  rw [show (routeRequest (directFrom [])).channel = js "chat" by decide,
    show (routeRequest (directFrom [])).accountId = DEFAULT_ACCOUNT_ID by decide,
    show (routeRequest { channel := js "chat" }).channel = js "chat" by decide,
    show (routeRequest { channel := js "chat" }).accountId = DEFAULT_ACCOUNT_ID by decide,
    directConfig_bindings] at hmatched
  exact absurd hmatched (by decide)

end Calls

end ClawWorks.Routing
