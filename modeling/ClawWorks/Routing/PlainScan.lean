import ClawWorks.Routing.RouteCache

/-!
# Every binding at every tier

What a route would be if each tier looked through all bindings of the channel and account in their order, and that the
index loses none of them.
-/

namespace ClawWorks.Routing

open List

/-! ## Source order -/

theorem merge_filter {α : Type} (position : α → Nat) (p q : α → Bool) (items : List α)
    (hsorted : items.Pairwise fun a b => position a < position b) (hdisjoint : ∀ a ∈ items, p a → q a = false) :
    (items.filter p).merge (items.filter q) (fun a b => decide (position a ≤ position b)) =
      items.filter fun a => p a || q a := by
  induction items with
  | nil => exact nil_merge _
  | cons a items ih =>
    obtain ⟨hbefore, hsorted⟩ := pairwise_cons.mp hsorted
    have hrest := ih hsorted fun b hb => hdisjoint b (mem_cons_of_mem _ hb)
    rw [filter_cons, filter_cons, filter_cons, ← hrest]
    cases hp : p a with
    | true =>
      rw [hdisjoint a mem_cons_self hp, if_pos rfl, if_neg Bool.false_ne_true, Bool.true_or, if_pos rfl]
      cases hq : items.filter q with
      | nil => rw [merge_right, merge_right]
      | cons b others =>
        have hb := hbefore b (mem_filter.mp (hq ▸ mem_cons_self)).1
        rw [cons_merge_cons, if_pos (decide_eq_true hb.le)]
    | false =>
      rw [if_neg Bool.false_ne_true, Bool.false_or]
      cases hq : q a with
      | false => rfl
      | true =>
        rw [if_pos rfl, if_pos rfl]
        cases hpItems : items.filter p with
        | nil => rw [nil_merge, nil_merge]
        | cons b others =>
          have hb := hbefore b (mem_filter.mp (hpItems ▸ mem_cons_self)).1
          rw [cons_merge_cons, if_neg (by simpa using hb)]

theorem truthy?_ne_nil (value : Option JsString) : truthy? value ≠ some [] := by
  intro h
  have hvalue := truthy?_eq_some h
  rw [hvalue] at h
  cases h

theorem normalizeRouteBindingRoles_idem (roles : Option (List JsString)) :
    normalizeRouteBindingRoles (normalizeRouteBindingRoles roles) = normalizeRouteBindingRoles roles := by
  match roles with
  | none => rfl
  | some [] => rfl
  | some (_ :: _) => rfl

variable [LowerCase]

def bindingChannel (binding : AgentBinding) : JsString :=
  normalizeLowercaseStringOrEmpty ((binding.bindingMatch.bind (·.channel)).getD [])

/-- The bindings that name a channel, numbered in their order. -/
def evaluateFrom : Nat → List AgentBinding → List EvaluatedBinding
  | _, [] => []
  | order, binding :: bindings =>
    if bindingChannel binding = [] then evaluateFrom order bindings
    else ⟨binding, normalizeBindingMatch binding.bindingMatch, order⟩ :: evaluateFrom (order + 1) bindings

def EvaluatedBinding.isAnyAccount (evaluated : EvaluatedBinding) : Bool :=
  evaluated.bindingMatch.accountPattern = ANY_ACCOUNT

open EvaluatedBinding

def scopedToAccount (channel accountId : JsString) (evaluated : EvaluatedBinding) : Bool :=
  bindingChannel evaluated.binding = channel && !evaluated.isAnyAccount &&
    resolveAccountPatternKey evaluated.bindingMatch.accountPattern = accountId

def scopedToChannel (channel : JsString) (evaluated : EvaluatedBinding) : Bool :=
  bindingChannel evaluated.binding = channel && evaluated.isAnyAccount

def bindingsInOrder (cfg : RouteConfig) (channel accountId : JsString) : List EvaluatedBinding :=
  (evaluateFrom 0 (cfg.bindings.filter fun binding => !binding.isAcp)).filter fun evaluated =>
    scopedToAccount channel accountId evaluated || scopedToChannel channel evaluated

section SourceOrder

variable (channel accountId : JsString) (byChannel : JsMap JsString EvaluatedBindingsByChannel)

def accountBucket (channel accountId : JsString) : List EvaluatedBinding :=
  ((byChannel.get channel).bind (·.byAccount.get accountId)).getD []

def anyBucket (channel : JsString) : List EvaluatedBinding :=
  ((byChannel.get channel).map (·.byAnyAccount)).getD []

theorem buckets_addEvaluatedBinding (evaluated : EvaluatedBinding) :
    accountBucket (addEvaluatedBinding byChannel (bindingChannel evaluated.binding) evaluated) channel accountId =
        accountBucket byChannel channel accountId ++ [evaluated].filter (scopedToAccount channel accountId) ∧
      anyBucket (addEvaluatedBinding byChannel (bindingChannel evaluated.binding) evaluated) channel =
        anyBucket byChannel channel ++ [evaluated].filter (scopedToChannel channel) := by
  simp only [accountBucket, anyBucket, addEvaluatedBinding, filter_singleton, scopedToAccount, scopedToChannel,
    isAnyAccount]
  split
  · rename_i hany
    simp only [JsMap.get_set]
    split
    · rename_i hchannel
      subst hchannel
      cases hbucket : byChannel.get (bindingChannel evaluated.binding) <;> simp [hany]
    · rename_i hchannel
      simp [hchannel]
  · rename_i hany
    simp only [JsMap.get_set]
    split
    · rename_i hchannel
      subst hchannel
      by_cases haccount : resolveAccountPatternKey evaluated.bindingMatch.accountPattern = accountId
      · subst haccount
        cases hbucket : byChannel.get (bindingChannel evaluated.binding) <;> simp [hany, JsMap.get_set]
      · cases hbucket : byChannel.get (bindingChannel evaluated.binding) <;> simp [hany, haccount, JsMap.get_set]
    · rename_i hchannel
      simp [hchannel]

theorem buckets_buildEvaluatedBindingsFrom (order : Nat) (byChannel : JsMap JsString EvaluatedBindingsByChannel)
    (bindings : List AgentBinding) :
    accountBucket (buildEvaluatedBindingsFrom order byChannel bindings) channel accountId =
        accountBucket byChannel channel accountId ++
          (evaluateFrom order bindings).filter (scopedToAccount channel accountId) ∧
      anyBucket (buildEvaluatedBindingsFrom order byChannel bindings) channel =
        anyBucket byChannel channel ++ (evaluateFrom order bindings).filter (scopedToChannel channel) := by
  induction bindings generalizing order byChannel with
  | nil => simp [buildEvaluatedBindingsFrom, evaluateFrom]
  | cons binding bindings ih =>
    rw [buildEvaluatedBindingsFrom, evaluateFrom, ← bindingChannel]
    split
    · exact ih _ _
    · obtain ⟨haccount, hany⟩ := buckets_addEvaluatedBinding channel accountId byChannel
        ⟨binding, normalizeBindingMatch binding.bindingMatch, order⟩
      obtain ⟨haccounts, hanys⟩ := ih (order + 1) (addEvaluatedBinding byChannel (bindingChannel binding)
        ⟨binding, normalizeBindingMatch binding.bindingMatch, order⟩)
      rw [haccounts, hanys, haccount, hany, append_assoc, append_assoc, ← filter_append, ← filter_append]
      exact ⟨rfl, rfl⟩

theorem evaluateFrom_pairwise (order : Nat) (bindings : List AgentBinding) :
    (∀ evaluated ∈ evaluateFrom order bindings, order ≤ evaluated.order) ∧
      (evaluateFrom order bindings).Pairwise fun a b => a.order < b.order := by
  induction bindings generalizing order with
  | nil =>
    rw [evaluateFrom]
    exact ⟨forall_mem_nil _, .nil⟩
  | cons binding bindings ih =>
    rw [evaluateFrom]
    split
    · exact ih order
    · obtain ⟨hle, hpairwise⟩ := ih (order + 1)
      exact ⟨forall_mem_cons.mpr ⟨le_rfl, fun evaluated hmem => (Nat.le_succ _).trans (hle evaluated hmem)⟩,
        pairwise_cons.mpr ⟨hle, hpairwise⟩⟩

/-- **The bindings of a channel and account are in source order**, and none is lost. -/
theorem evaluateBindings_eq (cfg : RouteConfig) :
    evaluateBindings cfg channel accountId = bindingsInOrder cfg channel accountId := by
  obtain ⟨haccount, hany⟩ := buckets_buildEvaluatedBindingsFrom channel accountId 0 []
    (cfg.bindings.filter fun binding => !binding.isAcp)
  change mergeEvaluatedBindingsInSourceOrder (accountBucket (buildEvaluatedBindingsByChannel cfg) channel accountId)
    (anyBucket (buildEvaluatedBindingsByChannel cfg) channel) = _
  rw [buildEvaluatedBindingsByChannel, haccount, hany]
  refine merge_filter order _ _ _ (evaluateFrom_pairwise _ _).2 fun evaluated _ h => ?_
  rw [scopedToAccount, Bool.and_eq_true, Bool.and_eq_true, Bool.not_eq_true'] at h
  rw [scopedToChannel, h.1.2, Bool.and_false]

/-- What a binding matches on is normalized: no id and no list of roles is empty. -/
structure EvaluatedBinding.Normalized (evaluated : EvaluatedBinding) : Prop where
  guildId : evaluated.bindingMatch.guildId ≠ some []
  teamId : evaluated.bindingMatch.teamId ≠ some []
  roles : normalizeRouteBindingRoles evaluated.bindingMatch.roles = evaluated.bindingMatch.roles

theorem normalized_of_mem_evaluateFrom {order : Nat} {bindings : List AgentBinding} {evaluated : EvaluatedBinding}
    (h : evaluated ∈ evaluateFrom order bindings) : evaluated.Normalized := by
  induction bindings generalizing order with
  | nil =>
    rw [evaluateFrom] at h
    cases h
  | cons binding bindings ih =>
    rw [evaluateFrom] at h
    split at h
    · exact ih h
    · rcases mem_cons.mp h with rfl | h
      · exact ⟨truthy?_ne_nil (some _), truthy?_ne_nil (some _), normalizeRouteBindingRoles_idem _⟩
      · exact ih h

end SourceOrder

/-! ## The index -/

inductive IndexKey where
  | peer (key : JsString)
  | wildcard
  | guildRoles (guildId : JsString)
  | guild (guildId : JsString)
  | team (teamId : JsString)
  | account
  | channel
  deriving DecidableEq

open IndexKey

def indexKeys (evaluated : EvaluatedBinding) : List IndexKey :=
  match evaluated.bindingMatch.peer with
  | .valid kind id => (peerLookupKeys kind id).map .peer
  | .wildcardKind _ => [.wildcard]
  | _ =>
    match evaluated.bindingMatch.guildId, evaluated.bindingMatch.roles with
    | some guildId, some _ => [.guildRoles guildId]
    | some guildId, none => [.guild guildId]
    | none, _ =>
      match evaluated.bindingMatch.teamId with
      | some teamId => [.team teamId]
      | none => if evaluated.isAnyAccount then [.channel] else [.account]

def EvaluatedBindingsIndex.lookup (index : EvaluatedBindingsIndex) : IndexKey → List EvaluatedBinding
  | .peer key => (index.byPeer.get key).getD []
  | .wildcard => index.byPeerWildcard
  | .guildRoles guildId => (index.byGuildWithRoles.get guildId).getD []
  | .guild guildId => (index.byGuild.get guildId).getD []
  | .team teamId => (index.byTeam.get teamId).getD []
  | .account => index.byAccount
  | .channel => index.byChannel

section Index

omit [LowerCase]

variable (map : JsMap JsString (List EvaluatedBinding))

theorem get_pushToIndexMap {key : JsString} (hkey : key ≠ [])
    (binding : EvaluatedBinding) (k : JsString) : ((pushToIndexMap map key binding).get k).getD [] =
      (map.get k).getD [] ++ if k = key then [binding] else [] := by
  rw [pushToIndexMap, if_neg hkey, JsMap.get_set]
  by_cases hk : key = k
  · rw [if_pos hk, if_pos hk.symm, hk, Option.getD_some]
  · rw [if_neg hk, if_neg (Ne.symm hk), append_nil]

theorem get_foldl_pushToIndexMap {keys : List JsString}
    (hkeys : ∀ key ∈ keys, key ≠ []) (hnodup : keys.Nodup) (binding : EvaluatedBinding) (k : JsString) :
    ((keys.foldl (fun map key => pushToIndexMap map key binding) map).get k).getD [] =
      (map.get k).getD [] ++ if k ∈ keys then [binding] else [] := by
  induction keys generalizing map with
  | nil => simp
  | cons key keys ih =>
    obtain ⟨hfresh, hnodup⟩ := nodup_cons.mp hnodup
    rw [foldl_cons, ih _ (fun key hkey => hkeys key (mem_cons_of_mem _ hkey)) hnodup,
      get_pushToIndexMap map (hkeys key mem_cons_self)]
    by_cases hk : k = key
    · subst hk
      simp [hfresh]
    · simp [hk]

def peerKey (kind : ChatType) (id : JsString) : JsString :=
  kind.text ++ js ":" ++ id

theorem peerKey_ne_nil (kind : ChatType) (id : JsString) : peerKey kind id ≠ [] := by
  cases kind <;> exact cons_ne_nil _ _

theorem peerLookupKeys_eq (kind : ChatType) (id : JsString) : peerLookupKeys kind id = match kind with
    | .group => [peerKey .group id, peerKey .channel id]
    | .channel => [peerKey .channel id, peerKey .group id]
    | .direct => [peerKey .direct id] := by
  cases kind <;> rfl

variable {kind kind' : ChatType} {id id' : JsString}

theorem peerKey_inj : peerKey kind id = peerKey kind' id' ↔ kind = kind' ∧ id = id' := by
  refine ⟨fun h => ?_, fun ⟨hkind, hid⟩ => by rw [hkind, hid]⟩
  have hhead := congrArg head? h
  rw [peerKey, peerKey, head?_peerText, head?_peerText] at hhead
  obtain rfl := head?_text_inj hhead
  exact ⟨rfl, append_cancel_left h⟩

theorem mem_peerLookupKeys : peerKey kind id ∈ peerLookupKeys kind' id' ↔ peerKindMatches kind' kind ∧ id = id' := by
  rw [peerLookupKeys_eq]
  cases kind <;> cases kind' <;> simp [peerKey_inj, peerKindMatches]

theorem lookup_addToIndex (index : EvaluatedBindingsIndex) {binding : EvaluatedBinding} (h : binding.Normalized)
    (key : IndexKey) :
    (addToIndex index binding).lookup key = index.lookup key ++ if key ∈ indexKeys binding then [binding] else [] := by
  rw [addToIndex, indexKeys]
  cases hpeer : binding.bindingMatch.peer with
  | valid kind id =>
    cases key with
    | peer key =>
      have hmem : peer key ∈ (peerLookupKeys kind id).map peer ↔ key ∈ peerLookupKeys kind id := by
        simp
      simp only [hmem]
      refine get_foldl_pushToIndexMap _ (fun key hkey => ?_) ?_ binding key
      · rw [peerLookupKeys_eq] at hkey
        cases kind <;> simp only [mem_cons, not_mem_nil, or_false] at hkey
        · exact hkey ▸ peerKey_ne_nil _ _
        · rcases hkey with rfl | rfl <;> exact peerKey_ne_nil _ _
        · rcases hkey with rfl | rfl <;> exact peerKey_ne_nil _ _
      · rw [peerLookupKeys_eq]
        cases kind <;> simp [peerKey_inj]
    | _ => simp [EvaluatedBindingsIndex.lookup]
  | wildcardKind kind => cases key <;> simp [EvaluatedBindingsIndex.lookup]
  | _ =>
    dsimp only
    cases hguild : binding.bindingMatch.guildId with
    | some guildId =>
      have hne : guildId ≠ [] := fun hnil => h.guildId (hguild.trans (congrArg some hnil))
      cases binding.bindingMatch.roles with
      | some roles =>
        cases key with
        | guildRoles key =>
          simpa [EvaluatedBindingsIndex.lookup] using get_pushToIndexMap index.byGuildWithRoles hne binding key
        | _ => simp [EvaluatedBindingsIndex.lookup]
      | none =>
        cases key with
        | guild key => simpa [EvaluatedBindingsIndex.lookup] using get_pushToIndexMap index.byGuild hne binding key
        | _ => simp [EvaluatedBindingsIndex.lookup]
    | none =>
      cases hteam : binding.bindingMatch.teamId with
      | some teamId =>
        have hne : teamId ≠ [] := fun hnil => h.teamId (hteam.trans (congrArg some hnil))
        cases key with
        | team key => simpa [EvaluatedBindingsIndex.lookup] using get_pushToIndexMap index.byTeam hne binding key
        | _ => simp [EvaluatedBindingsIndex.lookup]
      | none =>
        by_cases hany : binding.bindingMatch.accountPattern = ANY_ACCOUNT
        · cases key <;> simp [EvaluatedBindingsIndex.lookup, isAnyAccount, hany]
        · cases key <;> simp [EvaluatedBindingsIndex.lookup, isAnyAccount, hany]

variable {bindings : List EvaluatedBinding}

theorem lookup_buildEvaluatedBindingsIndex (h : ∀ binding ∈ bindings, binding.Normalized) (key : IndexKey) :
    (buildEvaluatedBindingsIndex bindings).lookup key =
      bindings.filter fun binding => decide (key ∈ indexKeys binding) := by
  have hfold : ∀ index : EvaluatedBindingsIndex, (bindings.foldl addToIndex index).lookup key =
      index.lookup key ++ bindings.filter fun binding => decide (key ∈ indexKeys binding) := by
    induction bindings with
    | nil => exact fun index => (append_nil _).symm
    | cons binding bindings ih =>
      intro index
      rw [foldl_cons, ih (fun other hother => h other (mem_cons_of_mem _ hother)),
        lookup_addToIndex index (h binding mem_cons_self), filter_cons, append_assoc]
      by_cases hkey : key ∈ indexKeys binding
      · simp [hkey]
      · simp [hkey]
  have hempty : EvaluatedBindingsIndex.lookup {} key = [] := by cases key <;> rfl
  rw [buildEvaluatedBindingsIndex, hfold, hempty, nil_append]

theorem peer_mem_indexKeys {evaluated : EvaluatedBinding} {kind : ChatType} {id : JsString} :
    peer (peerKey kind id) ∈ indexKeys evaluated ↔
      ∃ kind', evaluated.bindingMatch.peer = .valid kind' id ∧ peerKindMatches kind' kind := by
  rw [indexKeys]
  cases hpeer : evaluated.bindingMatch.peer with
  | valid kind' id' =>
    simp only [mem_map, peer.injEq, exists_eq_right, mem_peerLookupKeys,
      NormalizedPeerConstraint.valid.injEq]
    constructor
    · rintro ⟨hkind, rfl⟩
      exact ⟨kind', ⟨rfl, rfl⟩, hkind⟩
    · rintro ⟨_, ⟨rfl, rfl⟩, hkind⟩
      exact ⟨hkind, rfl⟩
  | wildcardKind kind' => simp
  | _ =>
    dsimp only
    split
    · simp
    · simp
    · split
      · simp
      · split <;> simp

theorem collect_eq {found again : List EvaluatedBinding} (hdistinct : found.Pairwise fun a b => a.order < b.order)
    (hagain : again ⊆ found) : (found ++ again).foldl (fun out candidate =>
      if (out.any fun seen => seen.order == candidate.order) then out else out ++ [candidate]) [] = found := by
  have hnew : ∀ out : List EvaluatedBinding, (out ++ found).Pairwise (fun a b => a.order < b.order) →
      found.foldl (fun out candidate =>
        if (out.any fun seen => seen.order == candidate.order) then out else out ++ [candidate]) out =
          out ++ found := by
    clear hdistinct hagain
    induction found with
    | nil => exact fun out _ => (append_nil out).symm
    | cons candidate found ih =>
      intro out hsorted
      have hfresh : (out.any fun seen => seen.order == candidate.order) = false := by
        refine any_eq_false.mpr fun seen hseen => ?_
        have hlt := (pairwise_append.mp hsorted).2.2 seen hseen candidate mem_cons_self
        simpa using hlt.ne
      rw [foldl_cons, if_neg (by rw [hfresh]; decide), ih _ (by simpa using hsorted), append_assoc,
        singleton_append]
  have hseen : ∀ again ⊆ found, again.foldl (fun out candidate =>
      if (out.any fun seen => seen.order == candidate.order) then out else out ++ [candidate]) found =
        found := by
    intro again hagain
    induction again with
    | nil => rfl
    | cons candidate again ih =>
      obtain ⟨hcandidate, hagain⟩ := cons_subset.mp hagain
      have hany : (found.any fun seen => seen.order == candidate.order) :=
        any_eq_true.mpr ⟨candidate, hcandidate, beq_self_eq_true candidate.order⟩
      rw [foldl_cons, if_pos hany, ih hagain]
  rw [foldl_append, hnew [] hdistinct, nil_append, hseen again hagain]

theorem collectPeerIndexedBindings_eq (h : ∀ binding ∈ bindings, binding.Normalized)
    (hsorted : bindings.Pairwise fun a b => a.order < b.order) (peer : RoutePeer) :
    collectPeerIndexedBindings (buildEvaluatedBindingsIndex bindings) (some peer) =
      bindings.filter fun binding => decide (IndexKey.peer (peerKey peer.kind peer.id) ∈ indexKeys binding) := by
  have hlookup : ∀ kind, ((buildEvaluatedBindingsIndex bindings).byPeer.get (peerKey kind peer.id)).getD [] =
      bindings.filter fun binding => decide (IndexKey.peer (peerKey kind peer.id) ∈ indexKeys binding) :=
    fun kind => lookup_buildEvaluatedBindingsIndex h (.peer (peerKey kind peer.id))
  -- a group is indexed under the key of a channel too, and the other way round
  have hgroups : (bindings.filter fun binding => decide (IndexKey.peer (peerKey .group peer.id) ∈ indexKeys binding)) =
      bindings.filter fun binding => decide (IndexKey.peer (peerKey .channel peer.id) ∈ indexKeys binding) := by
    refine filter_congr fun binding _ => decide_eq_decide.mpr ?_
    rw [peer_mem_indexKeys, peer_mem_indexKeys]
    exact exists_congr fun kind => and_congr_right fun _ => by cases kind <;> decide
  rw [collectPeerIndexedBindings, peerLookupKeys_eq]
  cases hkind : peer.kind with
  | direct =>
    simp only [flatMap_cons, flatMap_nil, hlookup]
    exact collect_eq (hsorted.filter _) (nil_subset _)
  | group =>
    simp only [flatMap_cons, flatMap_nil, append_nil, hlookup, ← hgroups]
    exact collect_eq (hsorted.filter _) (List.Subset.refl _)
  | channel =>
    simp only [flatMap_cons, flatMap_nil, append_nil, hlookup, hgroups]
    exact collect_eq (hsorted.filter _) (List.Subset.refl _)

end Index

/-! ## Tiers -/

def RouteTier.hits (request : RouteRequest) (tier : RouteTier) (evaluated : EvaluatedBinding) : Bool :=
  tier.enabled && (tier.predicate evaluated && matchesBindingScope evaluated.bindingMatch
    ⟨tier.scopePeer, request.guildId, request.teamId, request.memberRoleIds⟩)

open RouteTier

def RouteTier.overAll (all : List EvaluatedBinding) (tier : RouteTier) : RouteTier :=
  { tier with candidates := all }

/-- The first tier with a matching binding among all those for the channel and account, and the first such binding. -/
def scan (cfg : RouteConfig) (request : RouteRequest) : Option (MatchedBy × AgentBinding) :=
  ((routeTiers {} request).map (RouteTier.overAll (bindingsInOrder cfg request.channel request.accountId))).findSome?
    (RouteTier.match? request)

def scannedRoute (cfg : RouteConfig) (request : RouteRequest) : ResolvedAgentRoute :=
  match scan cfg request with
  | some (matchedBy, binding) => choose cfg request binding.agentId matchedBy binding.sessionDmScope
  | none => choose cfg request (resolveDefaultAgentId cfg) .default none

section Tiers

omit [LowerCase]

variable {request : RouteRequest} {all : List EvaluatedBinding}

/-- Each tier's candidates are those of all bindings that match at the tier, but for ones that were seen before. -/
def Covers (request : RouteRequest) (all : List EvaluatedBinding) : (EvaluatedBinding → Prop) → List RouteTier → Prop
  | _, [] => True
  | seen, tier :: tiers =>
    (tier.enabled = true → ∃ kept : EvaluatedBinding → Bool, tier.candidates = all.filter kept ∧
      ∀ evaluated ∈ all, tier.hits request evaluated = true → kept evaluated = true ∨ seen evaluated) ∧
    Covers request all (fun evaluated => seen evaluated ∨ tier.hits request evaluated = true) tiers

theorem match?_overAll {tier : RouteTier} (h : tier.enabled → ∃ kept : EvaluatedBinding → Bool,
    tier.candidates = all.filter kept ∧ ∀ evaluated ∈ all, tier.hits request evaluated → kept evaluated) :
    tier.match? request = (tier.overAll all).match? request := by
  rw [match?, match?, overAll]
  dsimp only
  by_cases henabled : tier.enabled
  · obtain ⟨kept, hcandidates, hkept⟩ := h henabled
    rw [if_pos henabled, if_pos henabled, hcandidates, ← head?_filter, ← head?_filter, filter_filter]
    congr 2
    refine filter_congr fun evaluated hmem => ?_
    have hhits := hkept evaluated hmem
    rw [hits, henabled, Bool.true_and] at hhits
    exact Bool.and_eq_left_iff_imp.mpr hhits
  · rw [if_neg henabled, if_neg henabled]

theorem findSome?_overAll {seen : EvaluatedBinding → Prop} {tiers : List RouteTier}
    (h : Covers request all seen tiers) (hseen : ∀ evaluated ∈ all, ¬ seen evaluated) :
    tiers.findSome? (match? request) =
      (tiers.map (overAll all)).findSome? (match? request) := by
  induction tiers generalizing seen with
  | nil => rfl
  | cons tier tiers ih =>
    obtain ⟨hcovers, hrest⟩ := h
    have htier : tier.match? request = (tier.overAll all).match? request :=
      match?_overAll fun henabled => (hcovers henabled).imp fun kept hkept =>
        ⟨hkept.1, fun evaluated hmem hhits => (hkept.2 evaluated hmem hhits).resolve_right (hseen evaluated hmem)⟩
    rw [map_cons, findSome?_cons, findSome?_cons, htier]
    cases hmatch : (tier.overAll all).match? request with
    | some found => rfl
    | none =>
      refine ih hrest fun evaluated hmem hor => hor.elim (hseen evaluated hmem) fun hhits => ?_
      rw [hits, Bool.and_eq_true] at hhits
      have hnone := Option.map_eq_none_iff.mp ((if_pos hhits.1).symm.trans hmatch)
      exact find?_eq_none.mp hnone evaluated hmem hhits.2

variable {evaluated : EvaluatedBinding} {scope : BindingScope}

theorem routeBindingScopeMatches_spec (hnormal : evaluated.Normalized)
    (h : routeBindingScopeMatches evaluated.bindingMatch scope) :
    (∀ guildId, evaluated.bindingMatch.guildId = some guildId → guildId = trim scope.guildId) ∧
      (∀ teamId, evaluated.bindingMatch.teamId = some teamId → teamId = trim scope.teamId) ∧
        (evaluated.bindingMatch.roles.isSome → scope.memberRoleIds ≠ []) := by
  have hid : ∀ {constraint : Option JsString} {exact id : JsString}, constraint ≠ some [] →
      scopeIdMatches constraint exact [] → constraint = some id → id = exact := by
    rintro _ exact id hne hmatches rfl
    have htruthy : truthy? (some id) = some id := truthy?_some fun hnil => hne (congrArg some hnil)
    rw [scopeIdMatches, htruthy] at hmatches
    simpa [show id ≠ [] from fun hnil => hne (congrArg some hnil)] using hmatches
  rw [routeBindingScopeMatches] at h
  split at h
  · cases h
  rename_i hguild
  split at h
  · cases h
  rename_i hteam
  refine ⟨fun guildId => hid hnormal.guildId (Bool.not_eq_false _ ▸ hguild),
    fun teamId => hid hnormal.teamId (Bool.not_eq_false _ ▸ hteam), fun hsome hnone => ?_⟩
  obtain ⟨roles, hsome⟩ := Option.isSome_iff_exists.mp hsome
  rw [hnormal.roles, hsome] at h
  dsimp only at h
  obtain ⟨role, -, hmember⟩ := any_eq_true.mp h
  rw [hnone] at hmember
  exact absurd (of_decide_eq_true hmember) not_mem_nil

theorem peer_mem_of_matches {peer : RoutePeer}
    (hvalid : evaluated.bindingMatch.peer.isValid) (hpeer : scope.peer = some peer)
    (h : matchesBindingScope evaluated.bindingMatch scope) :
    IndexKey.peer (peerKey peer.kind peer.id) ∈ indexKeys evaluated := by
  rw [peer_mem_indexKeys]
  rw [matchesBindingScope] at h
  cases hbinding : evaluated.bindingMatch.peer with
  | valid kind id =>
    rw [hbinding, hpeer] at h
    simp only [Option.any_some, Bool.and_eq_true, beq_iff_eq] at h
    exact ⟨kind, by rw [h.1.2], h.1.1⟩
  | _ =>
    rw [hbinding] at hvalid
    cases hvalid

theorem matchesBindingScope_cases {bindingMatch : NormalizedBindingMatch}
    (h : matchesBindingScope bindingMatch scope) :
    (scope.peer.isSome ∧ (bindingMatch.peer.isValid ∨ bindingMatch.peer.isWildcardKind)) ∨
      (bindingMatch.peer = .none ∧ routeBindingScopeMatches bindingMatch scope) := by
  have hsome : ∀ {p : RoutePeer → Bool}, scope.peer.any p → scope.peer.isSome := fun hany =>
    Option.isSome_iff_exists.mpr (((Option.any_eq_true _ _).mp hany).imp fun _ hpeer => hpeer.1)
  rw [matchesBindingScope] at h
  cases hpeer : bindingMatch.peer with
  | none =>
    rw [hpeer] at h
    exact .inr ⟨rfl, h⟩
  | invalid =>
    rw [hpeer] at h
    cases h
  | wildcardKind kind =>
    rw [hpeer] at h
    exact .inl ⟨hsome (Bool.and_eq_true_iff.mp h).1, .inr rfl⟩
  | valid kind id =>
    rw [hpeer] at h
    exact .inl ⟨hsome (Bool.and_eq_true_iff.mp h).1, .inl rfl⟩

theorem matched_cases (hnormal : evaluated.Normalized)
    (hguild : trim request.guildId = request.guildId) (hteam : trim request.teamId = request.teamId)
    (h : matchesBindingScope evaluated.bindingMatch
      ⟨request.peer, request.guildId, request.teamId, request.memberRoleIds⟩) :
    (request.peer.isSome ∧ evaluated.bindingMatch.peer.isValid) ∨
      (request.peer.isSome ∧ evaluated.bindingMatch.peer.isWildcardKind) ∨
      (evaluated.bindingMatch.guildId.isSome ∧ evaluated.bindingMatch.roles.isSome ∧
        request.guildId ≠ [] ∧ request.memberRoleIds ≠ [] ∧ .guildRoles request.guildId ∈ indexKeys evaluated) ∨
      (evaluated.bindingMatch.guildId.isSome ∧ evaluated.bindingMatch.roles = none ∧ request.guildId ≠ [] ∧
        .guild request.guildId ∈ indexKeys evaluated) ∨
      (evaluated.bindingMatch.guildId = none ∧ evaluated.bindingMatch.teamId.isSome ∧ request.teamId ≠ [] ∧
        .team request.teamId ∈ indexKeys evaluated) ∨
      (evaluated.bindingMatch.guildId = none ∧ evaluated.bindingMatch.teamId = none ∧
        (if evaluated.isAnyAccount then channel else account) ∈ indexKeys evaluated) := by
  rcases matchesBindingScope_cases h with ⟨hpeer, hvalid | hwild⟩ | ⟨hnone, hscope⟩
  · exact .inl ⟨hpeer, hvalid⟩
  · exact .inr (.inl ⟨hpeer, hwild⟩)
  obtain ⟨hguildId, hteamId, hroles⟩ := routeBindingScopeMatches_spec hnormal hscope
  rw [hguild] at hguildId
  rw [hteam] at hteamId
  refine .inr (.inr ?_)
  cases hbound : evaluated.bindingMatch.guildId with
  | some guildId =>
    obtain rfl := hguildId guildId hbound
    have hne : request.guildId ≠ [] := fun hnil => hnormal.guildId (hbound.trans (congrArg some hnil))
    cases hlist : evaluated.bindingMatch.roles with
    | some roles =>
      refine .inl ⟨rfl, rfl, hne, hroles (hlist ▸ rfl), ?_⟩
      rw [indexKeys, hnone, hbound, hlist]
      exact mem_singleton_self _
    | none =>
      refine .inr (.inl ⟨rfl, rfl, hne, ?_⟩)
      rw [indexKeys, hnone, hbound, hlist]
      exact mem_singleton_self _
  | none =>
    cases hboundTeam : evaluated.bindingMatch.teamId with
    | some teamId =>
      obtain rfl := hteamId teamId hboundTeam
      have hne : request.teamId ≠ [] := fun hnil => hnormal.teamId (hboundTeam.trans (congrArg some hnil))
      refine .inr (.inr (.inl ⟨rfl, rfl, hne, ?_⟩))
      rw [indexKeys, hnone, hbound, hboundTeam]
      exact mem_singleton_self _
    | none =>
      refine .inr (.inr (.inr ⟨rfl, rfl, ?_⟩))
      rw [indexKeys, hnone, hbound, hboundTeam]
      dsimp only
      split
      · exact mem_singleton_self _
      · exact mem_singleton_self _

/-- **The index loses no binding**: what a tier does not look at has matched at an earlier one. -/
theorem covers_routeTiers (hall : ∀ evaluated ∈ all, evaluated.Normalized)
    (hsorted : all.Pairwise fun a b => a.order < b.order) (hguild : trim request.guildId = request.guildId)
    (hteam : trim request.teamId = request.teamId) :
    Covers request all (fun _ => False) (routeTiers (buildEvaluatedBindingsIndex all) request) := by
  have hlookup := lookup_buildEvaluatedBindingsIndex hall
  have hid : ∀ (lists : JsMap JsString (List EvaluatedBinding)) {id : JsString}, id ≠ [] →
      (if id = [] then [] else (lists.get id).getD []) = (lists.get id).getD [] := fun _ _ hne => if_neg hne
  unfold routeTiers
  simp only [Covers, hits, Bool.and_eq_true, decide_eq_true_eq, and_true]
  refine ⟨fun henabled => ?_, fun henabled => ?_, fun _ => ?_, fun henabled => ?_, fun henabled => ?_,
    fun henabled => ?_, fun _ => ?_, fun _ => ?_⟩
  · obtain ⟨peer, hpeer⟩ := Option.isSome_iff_exists.mp henabled
    refine ⟨_, hpeer ▸ collectPeerIndexedBindings_eq hall hsorted peer, fun evaluated _ hhits => ?_⟩
    exact .inl (decide_eq_true (peer_mem_of_matches hhits.2.1 hpeer hhits.2.2))
  · obtain ⟨peer, hpeer⟩ := Option.isSome_iff_exists.mp henabled
    have hparent : request.parentPeer = some peer := (Option.filter_eq_some_iff.mp hpeer).1
    refine ⟨_, hparent ▸ collectPeerIndexedBindings_eq hall hsorted peer, fun evaluated _ hhits => ?_⟩
    exact .inl (decide_eq_true (peer_mem_of_matches hhits.2.1 hpeer hhits.2.2))
  · refine ⟨_, hlookup .wildcard, fun evaluated _ hhits => .inl (decide_eq_true ?_)⟩
    rw [indexKeys]
    cases hpeer : evaluated.bindingMatch.peer with
    | wildcardKind kind => exact mem_singleton_self _
    | _ =>
      rw [hpeer] at hhits
      cases hhits.2.1
  -- from here on a binding that is looked for elsewhere names a peer, or has an id of an earlier tier
  · refine ⟨_, (hid _ henabled.1).trans (hlookup (.guildRoles request.guildId)), fun evaluated hmem hhits => ?_⟩
    rcases matched_cases (hall evaluated hmem) hguild hteam hhits.2.2 with h | h | h | h | h | h
    all_goals simp_all
  · refine ⟨_, (hid _ henabled).trans (hlookup (.guild request.guildId)), fun evaluated hmem hhits => ?_⟩
    rcases matched_cases (hall evaluated hmem) hguild hteam hhits.2.2 with h | h | h | h | h | h
    all_goals simp_all
  · refine ⟨_, (hid _ henabled).trans (hlookup (.team request.teamId)), fun evaluated hmem hhits => ?_⟩
    rcases matched_cases (hall evaluated hmem) hguild hteam hhits.2.2 with h | h | h | h | h | h
    all_goals simp_all
  · refine ⟨_, hlookup .account, fun evaluated hmem hhits => ?_⟩
    rcases matched_cases (hall evaluated hmem) hguild hteam hhits.2.2 with h | h | h | h | h | h
    all_goals simp_all [isAnyAccount]
  · refine ⟨_, hlookup .channel, fun evaluated hmem hhits => ?_⟩
    rcases matched_cases (hall evaluated hmem) hguild hteam hhits.2.2 with h | h | h | h | h | h
    all_goals simp_all [isAnyAccount]

end Tiers

theorem findSome?_routeTiers_eq_scan (cfg : RouteConfig) (input : ResolveAgentRouteInput) :
    (routeTiers (buildEvaluatedBindingsIndex (evaluateBindings cfg (routeRequest input).channel
        (routeRequest input).accountId)) (routeRequest input)).findSome? (match? (routeRequest input)) =
      scan cfg (routeRequest input) := by
  rw [evaluateBindings_eq]
  exact findSome?_overAll (covers_routeTiers
    (fun evaluated hmem => normalized_of_mem_evaluateFrom (mem_filter.mp hmem).1)
    ((evaluateFrom_pairwise _ _).2.filter _) (trim_trim _) (trim_trim _)) fun _ _ => not_false

/-- **Indexed route resolution is the plain scan**: the tiers find the binding that they would find by looking through
every binding for the channel and account in order, and the route is the one to its agent. -/
theorem resolveAgentRoute_eq_scan (cfg : RouteConfig) (input : ResolveAgentRouteInput) :
    (routeTiers (buildEvaluatedBindingsIndex (evaluateBindings cfg (routeRequest input).channel
        (routeRequest input).accountId)) (routeRequest input)).findSome? (RouteTier.match? (routeRequest input)) =
      scan cfg (routeRequest input) ∧
    (resolveAgentRoute cfg {} input).2 = scannedRoute cfg (routeRequest input) := by
  refine ⟨findSome?_routeTiers_eq_scan cfg input, ?_⟩
  rw [resolveAgentRoute_fresh, route, routeOver, findSome?_routeTiers_eq_scan]
  unfold scannedRoute
  cases scan cfg (routeRequest input) <;> rfl

end ClawWorks.Routing
