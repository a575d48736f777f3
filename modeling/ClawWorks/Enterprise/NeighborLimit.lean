import ClawWorks.Enterprise.ObjectSearch

/-!
# The limit of a traversal

The edges of an object are cut to the limit before the ones to hidden object types are dropped, so a hidden neighbour can
take the place of one that may be shown.
-/

namespace ClawWorks

open List

theorem take_append_take {α : Type} (n : Nat) (front back : List α) :
    (front.take n ++ back.take n).take n = (front ++ back).take n := by
  rw [take_append, take_append, take_take, Nat.min_self, length_take, take_take]
  congr 2
  omega

variable {ν : Type} {database : ObjectStore ν} {params : NeighborParams}

/-- An edge with the direction it is walked in. -/
abbrev DirectedLink := LinkRow × LinkDirection

/-- The edge touches the object, and the filters on link types let it pass. -/
def NeighborParams.touches (params : NeighborParams) (direction : LinkDirection) (row : LinkRow) : Bool :=
  row.edge.nearEnd direction = ⟨params.treeId, params.entity, params.objectId⟩ &&
    match truthy? params.relationship with
    | some relationship => row.edge.relationship = relationship
    | none => params.relationships.all (·.contains row.edge.relationship)

/-- The edges of one direction in their order, without the limit. -/
def touchingLinks (database : ObjectStore ν) (params : NeighborParams) (direction : LinkDirection) :
    List DirectedLink :=
  ((database.links.rows.filter (params.touches direction)).insertionSort fun a b =>
    codePointNumbers a.edge.relationship ≤ codePointNumbers b.edge.relationship).map (·, direction)

/-- The edges of both directions, the outbound ones first. -/
def touching (database : ObjectStore ν) (params : NeighborParams) : List DirectedLink :=
  touchingLinks database params .outbound ++ touchingLinks database params .inbound

def DirectedLink.neighbor (link : DirectedLink) : ObjectKey :=
  link.1.edge.farEnd link.2

/-- The object type behind an edge is visible in the scope. -/
def NeighborParams.shows (params : NeighborParams) (link : DirectedLink) : Bool :=
  params.visibleProperties.all fun visible => (visible.get link.neighbor.entity).isSome

theorem mem_touching {link : DirectedLink} :
    link ∈ touching database params ↔ link.1 ∈ database.links.rows ∧ params.touches link.2 link.1 := by
  obtain ⟨row, direction⟩ := link
  simp only [touching, touchingLinks, mem_append, mem_map, mem_insertionSort, mem_filter, Prod.mk.injEq]
  cases direction with
  | outbound => simp
  | inbound => simp

theorem links_getOntologyNeighbors (hopen : params.relationships ≠ some []) :
    (getOntologyNeighbors database params).map (·.link) =
      (((touching database params).take params.limit).filter params.shows).map (·.1.edge) := by
  have hedges : ((selectLinks database params .outbound).map (·, LinkDirection.outbound) ++
      (selectLinks database params .inbound).map (·, LinkDirection.inbound)).take params.limit =
        (touching database params).take params.limit := by
    have htake := take_append_take params.limit (touchingLinks database params .outbound)
      (touchingLinks database params .inbound)
    rw [touching, ← htake, touchingLinks, touchingLinks, ← map_take, ← map_take]
    rfl
  rw [getOntologyNeighbors, if_neg hopen, hedges, map_map]
  rfl

/-- Below its limit, a traversal has shown every stored edge that touches the object, passes the filters and leads to an
existing object of a visible type. -/
def NeighborsComplete (database : ObjectStore ν) (params : NeighborParams) : Prop :=
  (getOntologyNeighbors database params).length < params.limit →
    ∀ row ∈ database.links.rows, ∀ direction, params.relationships ≠ some [] → params.touches direction row = true →
      params.shows (row, direction) = true → (database.objects.get? (row.edge.farEnd direction)).isSome = true →
        ∃ neighbor ∈ getOntologyNeighbors database params, neighbor.link = row.edge

/-- The edge leads to an existing object of a visible type and is not listed in either direction. -/
def Unlisted (database : ObjectStore ν) (params : NeighborParams) (listed : List DirectedLink) (link : DirectedLink) :
    Prop :=
  params.shows link = true ∧ (database.objects.get? link.neighbor).isSome = true ∧
    ∀ other ∈ listed, params.shows other = true → other.1.edge ≠ link.1.edge

theorem exists_neighbor_iff (hopen : params.relationships ≠ some []) {edge : OntologyEdge} :
    (∃ neighbor ∈ getOntologyNeighbors database params, neighbor.link = edge) ↔
      ∃ link ∈ (touching database params).take params.limit, params.shows link ∧ link.1.edge = edge := by
  rw [← mem_map, links_getOntologyNeighbors hopen, mem_map]
  simp only [mem_filter, and_assoc]

/-- **When a traversal is complete up to its limit**: exactly when the first edges, as many as the limit, all lead to
visible types, or each later one that leads to an existing object of a visible type is also among the first. -/
theorem neighborsComplete_iff (database : ObjectStore ν) (params : NeighborParams) :
    NeighborsComplete database params ↔ params.relationships = some [] ∨
      (∀ link ∈ (touching database params).take params.limit, params.shows link = true) ∨
        ∀ link ∈ (touching database params).drop params.limit,
          ¬ Unlisted database params ((touching database params).take params.limit) link := by
  by_cases hopen : params.relationships = some []
  · exact iff_of_true (fun _ _ _ _ h => absurd hopen h) (Or.inl hopen)
  rw [or_iff_right hopen]
  have hlength : (getOntologyNeighbors database params).length =
      (((touching database params).take params.limit).filter params.shows).length := by
    rw [← length_map, links_getOntologyNeighbors hopen, length_map]
  constructor
  · intro hcomplete
    by_contra! hhidden
    obtain ⟨⟨hidden, hfirst, hhidden⟩, link, hlater, hvisible, hexists, hunlisted⟩ := hhidden
    have hlimit : (getOntologyNeighbors database params).length < params.limit := by
      rw [hlength]
      have hsome : (((touching database params).take params.limit).filter params.shows).length <
          ((touching database params).take params.limit).length :=
        length_filter_lt_length_iff_exists.mpr ⟨hidden, hfirst, hhidden⟩
      exact hsome.trans_le (length_take_le _ _)
    obtain ⟨hstored, htouches⟩ := mem_touching.mp (mem_of_mem_drop hlater)
    obtain ⟨other, hlisted, hshown, hedge⟩ := (exists_neighbor_iff hopen).mp
      (hcomplete hlimit link.1 hstored link.2 hopen htouches hvisible hexists)
    exact hunlisted other hlisted hshown hedge
  · intro h hlimit row hstored direction _ htouches hvisible hexists
    rw [exists_neighbor_iff hopen]
    have hmem : (row, direction) ∈ touching database params := mem_touching.mpr ⟨hstored, htouches⟩
    rw [← take_append_drop params.limit (touching database params)] at hmem
    rcases mem_append.mp hmem with hfirst | hlater
    · exact ⟨(row, direction), hfirst, hvisible, rfl⟩
    · rcases h with hall | hnone
      · -- with nothing hidden among the first edges, a result below the limit means there are no others
        rw [hlength, filter_eq_self.mpr hall, length_take] at hlimit
        have := length_pos_of_mem hlater
        rw [length_drop] at this
        omega
      · have hlisted := hnone _ hlater
        simp only [Unlisted, not_and, not_forall, not_not] at hlisted
        obtain ⟨other, hother, hshown, hedge⟩ := hlisted hvisible hexists
        exact ⟨other, hother, hshown, hedge⟩

def auditedAccount : ObjectStore Int :=
  ⟨KeyedTable.empty.upsert ⟨⟨js "desk", js "customer", js "c1"⟩, [], 1, 1⟩,
    (KeyedTable.empty.upsert ⟨⟨js "desk", js "audits", js "account", js "a1", js "audit", js "x1"⟩, 1⟩).upsert
      ⟨⟨js "desk", js "owns", js "customer", js "c1", js "account", js "a1"⟩, 1⟩⟩

def oneNeighbor : NeighborParams where
  treeId := js "desk"
  entity := js "account"
  objectId := js "a1"
  visibleProperties := some namesOnly
  limit := 1

/-- The one place is taken by the audit, which is not shown, and the customer is left out. -/
theorem neighbors_incomplete : ¬ NeighborsComplete auditedAccount oneNeighbor := by
  intro h
  have hnone : getOntologyNeighbors auditedAccount oneNeighbor = [] := by decide
  obtain ⟨neighbor, hmem, -⟩ := h (by rw [hnone]; decide)
    ⟨⟨js "desk", js "owns", js "customer", js "c1", js "account", js "a1"⟩, 1⟩ (by decide) .inbound (by decide)
    (by decide) (by decide) (by decide)
  rw [hnone] at hmem
  cases hmem

end ClawWorks
