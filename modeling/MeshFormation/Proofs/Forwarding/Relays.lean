import MeshFormation.Proofs.Node.Calls

/-!
# The relays that are due

A node that runs its rules asks for the requests of each rule that is due, rule after rule, and
stops at the first refusal. It therefore does what it would do if all requests stood in one list
(`due`), and if all of them are accepted, then every rule that was due has run (`fired`).
-/

namespace MeshFormation

/-- The three rules by which a node relays the data of others. -/
inductive RelayRule where
  | fanout
  | uplink
  | cross

namespace Node

variable {α : Type} {node : Node} {backend : Backend} {first rest : List RelayRequest} {final : α}
  {result : α × Node}

/-- Requests in a row are made until one is refused. -/
theorem establishAll_append (node : Node) (backend : Backend) (first rest : List RelayRequest) :
    node.establishAll backend (first ++ rest) =
      if (node.establishAll backend first).2 then
        (node.establishAll backend first).1.establishAll backend rest
      else node.establishAll backend first := by
  induction first generalizing node with
  | nil => rfl
  | cons request others ih =>
    obtain ⟨source, channel⟩ := request
    rw [List.cons_append, establishAll, establishAll]
    cases node.establish backend source channel with
    | mk next accepted =>
      cases accepted with
      | true => exact ih next
      | false => rfl

/-- The node is the one that makes the requests in a row, and what comes with it is known if all of
them are accepted. -/
structure Makes (node : Node) (backend : Backend) (requests : List RelayRequest) (final : α)
    (result : α × Node) : Prop where
  last : result.2 = (node.establishAll backend requests).1
  accepted : (node.establishAll backend requests).2 = true → result.1 = final

theorem Makes.nothing (node : Node) (backend : Backend) (final : α) :
    node.Makes backend [] final (final, node) :=
  ⟨rfl, fun _ => rfl⟩

/-- The rest of the requests is made where the first ones are accepted. -/
theorem Makes.append
    (hrefused : ∀ next, node.establishAll backend first = (next, false) → result.2 = next)
    (haccepted : ∀ made, node.establishAll backend first = (node.attempting made, true) →
      (node.attempting made).Makes backend rest final result) :
    node.Makes backend (first ++ rest) final result := by
  have hcalls := node.calls_establishAll backend first
  have happend := node.establishAll_append backend first rest
  cases hfirst : node.establishAll backend first with
  | mk next accepted =>
    rw [hfirst] at hcalls happend
    cases accepted with
    | false =>
      rw [if_neg (by simp)] at happend
      constructor
      · rw [happend]
        exact hrefused next hfirst
      · rw [happend]
        exact fun haccepted => absurd haccepted (by simp)
    | true =>
      obtain ⟨made, rfl, -⟩ := hcalls.exists_of_accepted
      obtain ⟨hnode, hfinal⟩ := haccepted made hfirst
      rw [if_pos rfl] at happend
      constructor
      · rw [happend, hnode]
      · rw [happend]
        exact hfinal

end Node

namespace CubeForwarding

variable {cube : CubeForwarding} {node : Node}

/-- What the second and the third rule wait for: the partner, the fellow and the channel on which
the data of the partner comes. -/
def gate? (cube : CubeForwarding) (node : Node) : Option (Rank × Rank × Channel) :=
  cube.role.partner?.bind fun partner => (cube.fellow? node).bind fun fellow =>
    (node.ledger.input? partner).map fun uplink => (partner, fellow, uplink)

def relays? (cube : CubeForwarding) (node : Node) : RelayRule → Option (List RelayRequest)
  | .fanout => cube.role.partner?.bind (cube.partnerRelays? node)
  | .uplink => (cube.gate? node).bind fun (_, fellow, uplink) =>
    cube.uplinkRelays? node (innerNodes (node.topology.chassisMates node.rank) fellow) uplink
  | .cross => (cube.gate? node).bind fun (partner, fellow, uplink) =>
    cube.crossRelays? node partner fellow
      (innerNodes (node.topology.chassisMates node.rank) fellow) uplink

/-- The rules after each that is due has run. -/
def fired (cube : CubeForwarding) (node : Node) : CubeForwarding :=
  { cube with
    partnerRelayed := cube.partnerRelayed || (cube.relays? node .fanout).isSome
    uplinkRelayed := cube.uplinkRelayed || (cube.relays? node .uplink).isSome
    crossRelayed := cube.crossRelayed || (cube.relays? node .cross).isSome }

end CubeForwarding

namespace HypercubeForwarding

def relays? (rules : HypercubeForwarding) (node : Node) : RelayRule → Option (List RelayRequest)
  | .fanout => rules.partnerRelays? node
  | _ => none

end HypercubeForwarding

namespace Forwarding

variable {forwarding : Forwarding} {node : Node} {backend : Backend}

theorem eq_pair (h : forwarding.profile = .pair) : forwarding = pair := by
  cases forwarding with
  | pair => rfl
  | cube | hypercube => exact absurd h (by simp [profile])

theorem exists_eq_cube (h : forwarding.profile = .cube) : ∃ rules, forwarding = cube rules := by
  cases forwarding with
  | pair | hypercube => exact absurd h (by simp [profile])
  | cube rules => exact ⟨rules, rfl⟩

theorem exists_eq_hypercube (h : forwarding.profile = .hypercube) :
    ∃ rules, forwarding = hypercube rules := by
  cases forwarding with
  | pair | cube => exact absurd h (by simp [profile])
  | hypercube rules => exact ⟨rules, rfl⟩

def ran : Forwarding → RelayRule → Bool
  | .cube rules, .fanout => rules.partnerRelayed
  | .cube rules, .uplink => rules.uplinkRelayed
  | .cube rules, .cross => rules.crossRelayed
  | .hypercube rules, .fanout => rules.partnerRelayed
  | _, _ => false

def hears : Forwarding → Rank → Bool
  | .cube rules, rank => rules.announcers.contains rank
  | _, _ => false

/-- Whether a peer was told that the local node is an outer node. -/
def tells : Forwarding → Rank → Bool
  | .cube rules, rank => rules.informed.contains rank
  | _, _ => false

def requestedLinks : Forwarding → KeySet
  | .hypercube rules => rules.requestedLinks
  | _ => ∅

def links : Forwarding → KeySet
  | .hypercube rules => rules.liveLinks
  | _ => ∅

/-- The requests of a rule, if it is due. -/
def relays? (forwarding : Forwarding) (node : Node) (rule : RelayRule) :
    Option (List RelayRequest) :=
  match forwarding with
  | pair => none
  | cube rules => rules.relays? node rule
  | hypercube rules => rules.relays? node rule

/-- All requests that are due, in the order in which they are made. -/
def due (forwarding : Forwarding) (node : Node) : List RelayRequest :=
  (forwarding.relays? node .fanout).getD [] ++ (forwarding.relays? node .uplink).getD [] ++
    (forwarding.relays? node .cross).getD []

/-- The rules with other marks for which of them have run. -/
def marked (forwarding : Forwarding) (ran : RelayRule → Bool) : Forwarding :=
  match forwarding with
  | pair => pair
  | cube rules => cube { rules with
      partnerRelayed := ran .fanout, uplinkRelayed := ran .uplink, crossRelayed := ran .cross }
  | hypercube rules => hypercube { rules with partnerRelayed := ran .fanout }

/-- The rules after each that is due has run. -/
def fired (forwarding : Forwarding) (node : Node) : Forwarding :=
  forwarding.marked fun rule => forwarding.ran rule || (forwarding.relays? node rule).isSome

section Marked

variable {ran : RelayRule → Bool}

@[simp] theorem profile_marked : (forwarding.marked ran).profile = forwarding.profile := by
  cases forwarding <;> rfl

@[simp] theorem crossPartner?_marked :
    (forwarding.marked ran).crossPartner? = forwarding.crossPartner? := by
  cases forwarding <;> rfl

@[simp] theorem hears_marked : (forwarding.marked ran).hears = forwarding.hears := by
  cases forwarding <;> rfl

@[simp] theorem requestedLinks_marked :
    (forwarding.marked ran).requestedLinks = forwarding.requestedLinks := by
  cases forwarding <;> rfl

@[simp] theorem links_marked : (forwarding.marked ran).links = forwarding.links := by
  cases forwarding <;> rfl

theorem marked_ran (forwarding : Forwarding) : forwarding.marked forwarding.ran = forwarding := by
  cases forwarding <;> rfl

end Marked

theorem ran_fired (forwarding : Forwarding) (node : Node) (rule : RelayRule) :
    (forwarding.fired node).ran rule =
      (forwarding.ran rule || (forwarding.relays? node rule).isSome) := by
  cases forwarding <;> cases rule <;> rfl

theorem makes_cube_runRules (rules : CubeForwarding) (node : Node) (backend : Backend) :
    node.Makes backend ((cube rules).due node) (rules.fired node)
      (rules.runRules node backend) := by
  rw [CubeForwarding.runRules, CubeForwarding.fired, due]
  simp only [relays?, CubeForwarding.relays?, CubeForwarding.gate?]
  cases hpartner : rules.role.partner? with
  | none => simpa using Node.Makes.nothing node backend rules
  | some partner =>
    simp only [Option.bind_some, List.append_assoc]
    apply Node.Makes.append
    · intro next hrefused
      rw [hrefused]
    -- The attempts that were made change nothing that the other rules look at.
    intro made haccepted
    rw [haccepted]
    have hfellow : (CubeForwarding.fellow? { rules with
        partnerRelayed := rules.partnerRelayed || (rules.partnerRelays? node partner).isSome }
        (node.attempting made)) = rules.fellow? node := rfl
    have hinput : (node.attempting made).ledger.input? partner = node.ledger.input? partner := rfl
    dsimp only
    rw [hfellow, hinput]
    cases rules.fellow? node with
    | none => simpa using Node.Makes.nothing (node.attempting made) backend _
    | some fellow =>
      cases node.ledger.input? partner with
      | none => simpa using Node.Makes.nothing (node.attempting made) backend _
      | some uplink =>
        simp only [Option.bind_some, Option.map_some]
        apply Node.Makes.append
        · intro next hrefused
          split
          · rename_i other hother
            exact (Prod.mk.inj (hother.symm.trans hrefused)).1
          · rename_i other hother
            exact absurd (Prod.mk.inj (hother.symm.trans hrefused)).2 (by simp)
        · intro more haccepted
          split
          · rename_i other hother
            exact absurd (Prod.mk.inj (hother.symm.trans haccepted)).2 (by simp)
          · rename_i other hother
            obtain rfl := (Prod.mk.inj (hother.symm.trans haccepted)).1
            exact ⟨rfl, fun _ => rfl⟩

/-- The rules of a node ask for all that is due, in one go. -/
theorem makes_runRules (forwarding : Forwarding) (node : Node) (backend : Backend) :
    node.Makes backend (forwarding.due node) (forwarding.fired node)
      (forwarding.runRules node backend) := by
  cases forwarding with
  | pair => exact .nothing node backend pair
  | cube rules =>
    obtain ⟨hlast, hfinal⟩ := makes_cube_runRules rules node backend
    exact ⟨hlast, fun haccepted => congrArg cube (hfinal haccepted)⟩
  | hypercube rules =>
    have hdue : (hypercube rules).due node = (rules.partnerRelays? node).getD [] := by
      simp [due, relays?, HypercubeForwarding.relays?]
    rw [hdue]
    exact ⟨rfl, fun _ => rfl⟩

/-- Running the rules marks some of them, also where a request is refused. -/
theorem runRules_eq_marked (forwarding : Forwarding) (node : Node) (backend : Backend) :
    (forwarding.runRules node backend).1 =
      forwarding.marked (forwarding.runRules node backend).1.ran := by
  cases forwarding with
  | pair => rfl
  | hypercube rules => rfl
  | cube rules =>
    simp only [runRules, CubeForwarding.runRules]
    split
    · rfl
    split
    · rfl
    split
    · split <;> rfl
    · rfl

end Forwarding

end MeshFormation
