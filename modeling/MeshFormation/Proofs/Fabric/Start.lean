import MeshFormation.Fabric
import MeshFormation.Proofs.Cabling
import MeshFormation.Proofs.Router.Start
import MeshFormation.Proofs.Topology.Members

/-!
# The first state of a fabric

A fabric is created member by member. Its sites are then the sites that the members would get on
their own, with the wiring that the links give them, and its queue holds the channel events of all
cable ends and the network links that were asked for.
-/

namespace MeshFormation

def Site.node (site : Site) : Node := site.service.router.node

def Fabric.node? (fabric : Fabric) (rank : Rank) : Option Node :=
  (fabric.sites.get? rank).map Site.node

namespace Fabric

/-- The site that a member gets. -/
def startSite (all : List Member) (request : ProfileRequest) (cabling : Cabling) (rank : Rank) :
    Except RouterError Site :=
  match Topology.ofMembers all rank request with
  | .error fault => .error (.configuration fault)
  | .ok topology =>
    (Service.create topology).2.map fun service => ⟨service, cabling.wiringOf rank⟩

variable {all members : List Member} {request : ProfileRequest} {cabling : Cabling}
  {links : List Link} {fabric : Fabric}

theorem addSites_cons (member : Member) (rest : List Member) (sites : Table Site) :
    addSites all request cabling (member :: rest) sites =
      (startSite all request cabling member.rank).bind fun site =>
        addSites all request cabling rest (sites.insert member.rank site) := by
  rw [addSites, startSite]
  cases Topology.ofMembers all member.rank request with
  | error fault => rfl
  | ok topology =>
    dsimp only
    cases (Service.create topology).2 with
    | error error => rfl
    | ok service => rfl

/-- Sites are added one for each member, and each is the site that the member gets. -/
theorem addSites_eq_ok {sites result : Table Site}
    (h : addSites all request cabling members sites = .ok result) :
    (∀ rank, rank ∉ members.map (·.rank) → result.get? rank = sites.get? rank) ∧
      ∀ rank ∈ members.map (·.rank), ∃ site,
        startSite all request cabling rank = .ok site ∧ result.get? rank = some site := by
  induction members generalizing sites with
  | nil =>
    obtain rfl := Except.ok.inj h
    simp
  | cons member rest ih =>
    rw [addSites_cons] at h
    cases hsite : startSite all request cabling member.rank with
    | error error =>
      rw [hsite] at h
      exact absurd h (by simp [Except.bind])
    | ok site =>
      rw [hsite] at h
      obtain ⟨hold, hnew⟩ := ih h
      refine ⟨fun rank hrank => ?_, fun rank hrank => ?_⟩
      · rw [List.map_cons, List.mem_cons, not_or] at hrank
        rw [hold rank hrank.2, Table.get?_insert, if_neg hrank.1]
      · by_cases hrest : rank ∈ rest.map (·.rank)
        · exact hnew rank hrest
        · have heq : rank = member.rank := by simpa [hrest] using hrank
          subst heq
          exact ⟨site, hsite, by rw [hold _ hrest, Table.get?_insert, if_pos rfl]⟩

theorem addSites_isOk {sites : Table Site}
    (h : ∀ member ∈ members, ∃ site, startSite all request cabling member.rank = .ok site) :
    ∃ result, addSites all request cabling members sites = .ok result := by
  induction members generalizing sites with
  | nil => exact ⟨sites, rfl⟩
  | cons member rest ih =>
    obtain ⟨site, hsite⟩ := h member List.mem_cons_self
    rw [addSites_cons, hsite]
    exact ih fun other hmem => h other (List.mem_cons_of_mem _ hmem)

structure Created (members : List Member) (request : ProfileRequest) (links : List Link)
    (fabric : Fabric) : Prop where
  sites : ∀ rank, rank ∉ members.map (·.rank) → fabric.sites.get? rank = none
  site : ∀ rank ∈ members.map (·.rank), ∃ site,
    startSite members request (.ofLinks links) rank = .ok site ∧ fabric.sites.get? rank = some site
  queue : fabric.queue =
    (Cabling.ends links).map (discovery members) ++ networkLinks fabric.sites
  known : fabric.knownChannels = []
  errors : fabric.errors = []

theorem created_of_create (h : create members request links = .ok fabric) :
    Created members request links fabric := by
  rw [create] at h
  split at h
  · exact absurd h (by simp)
  · rename_i sites hsites
    obtain rfl := Except.ok.inj h
    obtain ⟨hold, hnew⟩ := addSites_eq_ok hsites
    exact ⟨fun rank hrank => by rw [hold rank hrank, Table.get?_empty], hnew, rfl, rfl, rfl⟩

/-- What is known of the site that a member gets. -/
theorem startSite_eq_ok {rank : Rank} {site : Site}
    (h : startSite all request cabling rank = .ok site) :
    ∃ topology forwarding node, Topology.ofMembers all rank request = .ok topology ∧
      Forwarding.start topology.profile (.start topology topology.expected) =
        (node, .ok forwarding) ∧
      site = ⟨⟨⟨node, forwarding⟩⟩, cabling.wiringOf rank⟩ := by
  rw [startSite] at h
  split at h
  · exact absurd h (by simp)
  rename_i topology htopology
  rw [Service.create, Router.create, if_neg (not_not_intro rfl)] at h
  cases hstart : Forwarding.start topology.profile (.start topology topology.expected) with
  | mk node result =>
    cases result with
    | error fault => simp [hstart, Except.map] at h
    | ok forwarding =>
      rw [hstart] at h
      exact ⟨topology, forwarding, node, htopology, hstart, (Except.ok.inj h).symm⟩

theorem Created.rank_mem (h : Created members request links fabric) {rank : Rank} {site : Site}
    (hsite : fabric.sites.get? rank = some site) : rank ∈ members.map (·.rank) := by
  refine Decidable.byContradiction fun hrank => ?_
  rw [h.sites rank hrank] at hsite
  exact absurd hsite (by simp)

theorem Created.startSite (h : Created members request links fabric) {rank : Rank} {site : Site}
    (hsite : fabric.sites.get? rank = some site) :
    startSite members request (.ofLinks links) rank = .ok site := by
  obtain ⟨other, hother, hget⟩ := h.site rank (h.rank_mem hsite)
  obtain rfl := Option.some.inj (hsite.symm.trans hget)
  exact hother

/-- A node that was just created knows nothing and has asked for hostnames only. -/
theorem Created.node? (h : Created members request links fabric) {rank : Rank} {node : Node}
    (hnode : fabric.node? rank = some node) :
    ∃ topology, Topology.ofMembers members rank request = .ok topology ∧
      ∃ hosts : List (Rank × String), node =
        { Node.start topology topology.expected with
          journal := ⟨[], hosts.map fun link => .hostname link.2 link.1⟩ } := by
  obtain ⟨site, hsite, rfl⟩ := Option.map_eq_some_iff.1 hnode
  obtain ⟨topology, forwarding, node, htopology, hstart, rfl⟩ := startSite_eq_ok (h.startSite hsite)
  obtain ⟨hosts, rfl⟩ := Forwarding.start_eq_ok hstart
  exact ⟨topology, htopology, hosts, rfl⟩

theorem Created.isSome_node?_iff (h : Created members request links fabric) (rank : Rank) :
    (fabric.node? rank).isSome = true ↔ rank ∈ members.map (·.rank) := by
  constructor
  · intro hnode
    rw [Fabric.node?, Option.isSome_map] at hnode
    obtain ⟨site, hsite⟩ := Option.isSome_iff_exists.1 hnode
    exact h.rank_mem hsite
  · intro hmem
    obtain ⟨site, -, hsite⟩ := h.site rank hmem
    rw [Fabric.node?, hsite]
    rfl

end Fabric

end MeshFormation
