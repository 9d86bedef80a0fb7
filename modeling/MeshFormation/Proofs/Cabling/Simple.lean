import MeshFormation.Proofs.Cabling

/-!
# One cable for a pair of nodes

If every link joins two different nodes and no pair of nodes is linked twice, then two nodes are
joined by at most one channel on either side, and every wired channel is listed once among the ends
of the cables.
-/

namespace MeshFormation.Cabling

/-- Whether a list of links has a link between two nodes, in either direction. -/
def Joined (links : List Link) (first second : Rank) : Prop :=
  (first, second) ∈ links ∨ (second, first) ∈ links

/-- Every link joins two different nodes, and no two links join the same ones. -/
structure Simple (links : List Link) : Prop where
  distinct : ∀ link ∈ links, link.1 ≠ link.2
  once : links.Pairwise fun link other => link ≠ other ∧ link ≠ other.swap

instance (links : List Link) (first second : Rank) : Decidable (Joined links first second) :=
  inferInstanceAs (Decidable (_ ∨ _))

instance (links : List Link) : Decidable (Simple links) :=
  decidable_of_iff ((links.all fun link => link.1 != link.2) = true ∧
    links.Pairwise fun link other => link ≠ other ∧ link ≠ other.swap) <| by
      rw [List.all_eq_true]
      simp only [bne_iff_ne]
      exact ⟨fun ⟨distinct, once⟩ => ⟨distinct, once⟩, fun ⟨distinct, once⟩ => ⟨distinct, once⟩⟩

/-- Two nodes share at most one cable. -/
def Single (cabling : Cabling) : Prop :=
  ∀ ⦃node channel other peer far otherFar⦄, cabling.farEnd? node channel = some (peer, far) →
    cabling.farEnd? node other = some (peer, otherFar) → channel = other

variable {links rest : List Link} {link : Link} {cabling : Cabling} {node peer : Rank}
  {channel far : Channel}

theorem Joined.symm (h : Joined links node peer) : Joined links peer node := Or.symm h

/-- What a new link wires is what was wired before, or one of its own ends. -/
theorem farEnd?_add_cases (h : (cabling.add link).farEnd? node channel = some (peer, far)) :
    cabling.farEnd? node channel = some (peer, far) ∨
      (node = link.2 ∧ channel = cabling.nextChannel link.2 ∧ peer = link.1) ∨
      (node = link.1 ∧ channel = cabling.nextChannel link.1 ∧ peer = link.2) := by
  rw [farEnd?_add] at h
  split at h
  · rename_i hend
    obtain ⟨rfl, -⟩ := Prod.mk.inj (Option.some.inj h)
    exact .inr (.inl ⟨hend.1, hend.2, rfl⟩)
  · split at h
    · rename_i hend
      obtain ⟨rfl, -⟩ := Prod.mk.inj (Option.some.inj h)
      exact .inr (.inr ⟨hend.1, hend.2, rfl⟩)
    · exact .inl h

theorem joined_of_foldl_add
    (h : (links.foldl add cabling).farEnd? node channel = some (peer, far)) :
    cabling.farEnd? node channel = some (peer, far) ∨ Joined links node peer := by
  induction links generalizing cabling with
  | nil => exact .inl h
  | cons link rest ih =>
    rcases ih h with hadd | hjoined | hjoined
    · rcases farEnd?_add_cases hadd with hold | ⟨rfl, -, rfl⟩ | ⟨rfl, -, rfl⟩
      · exact .inl hold
      · exact .inr (.inr List.mem_cons_self)
      · exact .inr (.inl List.mem_cons_self)
    · exact .inr (.inl (List.mem_cons_of_mem _ hjoined))
    · exact .inr (.inr (List.mem_cons_of_mem _ hjoined))

/-- A cable joins nodes that a link joins. -/
theorem joined_of_farEnd? (h : (ofLinks links).farEnd? node channel = some (peer, far)) :
    Joined links node peer := by
  rcases joined_of_foldl_add h with hempty | hjoined
  · exact absurd hempty (by simp [farEnd?_empty])
  · exact hjoined

theorem exists_farEnd?_of_mem (hsound : cabling.Sound) (hroom : cabling.Room links)
    (hmem : link ∈ links) :
    (∃ channel far, (links.foldl add cabling).farEnd? link.1 channel = some (link.2, far)) ∧
      ∃ channel far, (links.foldl add cabling).farEnd? link.2 channel = some (link.1, far) := by
  induction links generalizing cabling with
  | nil => exact absurd hmem (by simp)
  | cons first rest ih =>
    have hkeep := ((hsound.add hroom).foldl_add (hroom.add hsound)).2
    rcases List.mem_cons.1 hmem with rfl | hmem
    · have hsecond : (cabling.add link).farEnd? link.2 (cabling.nextChannel link.2) =
          some (link.1, cabling.nextChannel link.1) := by
        rw [farEnd?_add, if_pos ⟨rfl, rfl⟩]
      have hfirst := (hsound.add hroom).symmetric hsecond
      exact ⟨⟨_, _, hkeep _ _ _ hfirst⟩, ⟨_, _, hkeep _ _ _ hsecond⟩⟩
    · exact ih (hsound.add hroom) (hroom.add hsound) hmem

theorem Joined.exists_farEnd? (hfits : Fits links) (h : Joined links node peer) :
    ∃ channel far, (ofLinks links).farEnd? node channel = some (peer, far) := by
  rcases h with h | h
  · exact (exists_farEnd?_of_mem sound_empty hfits.room h).1
  · exact (exists_farEnd?_of_mem sound_empty hfits.room h).2

theorem Single.add (h : cabling.Single) (hdistinct : link.1 ≠ link.2)
    (hnew : ∀ channel far, cabling.farEnd? link.1 channel ≠ some (link.2, far))
    (hnew' : ∀ channel far, cabling.farEnd? link.2 channel ≠ some (link.1, far)) :
    (cabling.add link).Single := by
  intro node channel other peer far otherFar hone hother
  rcases farEnd?_add_cases hone with hone | ⟨rfl, rfl, rfl⟩ | ⟨rfl, rfl, rfl⟩ <;>
    rcases farEnd?_add_cases hother with hother | ⟨heq, rfl, heq'⟩ | ⟨heq, rfl, heq'⟩
  · exact h hone hother
  · subst heq heq'
    exact absurd hone (hnew' _ _)
  · subst heq heq'
    exact absurd hone (hnew _ _)
  · exact absurd hother (hnew' _ _)
  · rfl
  · exact absurd heq' hdistinct
  · exact absurd hother (hnew _ _)
  · exact absurd heq hdistinct
  · rfl

theorem Single.foldl_add (h : cabling.Single) (hsimple : Simple links)
    (hnew : ∀ {node channel peer far}, cabling.farEnd? node channel = some (peer, far) →
      ¬ Joined links node peer) : (links.foldl Cabling.add cabling).Single := by
  induction links generalizing cabling with
  | nil => exact h
  | cons link rest ih =>
    obtain ⟨honce, hrest⟩ := List.pairwise_cons.1 hsimple.once
    have hlater : ∀ {node channel peer far},
        (cabling.add link).farEnd? node channel = some (peer, far) → ¬ Joined rest node peer := by
      rintro node channel peer far hadd hjoined
      rcases farEnd?_add_cases hadd with hold | ⟨rfl, -, rfl⟩ | ⟨rfl, -, rfl⟩
      · exact hnew hold (hjoined.imp (List.mem_cons_of_mem _) (List.mem_cons_of_mem _))
      · rcases hjoined with hmem | hmem
        · exact (honce _ hmem).2 rfl
        · exact (honce _ hmem).1 rfl
      · rcases hjoined with hmem | hmem
        · exact (honce _ hmem).1 rfl
        · exact (honce _ hmem).2 rfl
    refine ih ?_ ⟨fun other hmem => hsimple.distinct other (List.mem_cons_of_mem _ hmem), hrest⟩
      hlater
    apply h.add (hsimple.distinct link List.mem_cons_self)
    · exact fun _ _ hold => hnew hold (.inl List.mem_cons_self)
    · exact fun _ _ hold => hnew hold (.inr List.mem_cons_self)

theorem single_ofLinks (hsimple : Simple links) : (ofLinks links).Single := by
  have hempty : empty.Single := by
    intro node channel other peer far otherFar h
    exact absurd h (by simp [farEnd?_empty])
  exact hempty.foldl_add hsimple fun h => absurd h (by simp [farEnd?_empty])

theorem nodup_endsFrom (hsound : cabling.Sound) (hroom : cabling.Room links)
    (hdistinct : ∀ link ∈ links, link.1 ≠ link.2) :
    ((cabling.endsFrom links).map fun cableEnd => (cableEnd.node, cableEnd.channel)).Nodup := by
  induction links generalizing cabling with
  | nil => exact .nil
  | cons link rest ih =>
    have hrest := ih (hsound.add hroom) (hroom.add hsound)
      fun other hmem => hdistinct other (List.mem_cons_of_mem _ hmem)
    have hfresh : ∀ node channel, ((cabling.add link).farEnd? node channel).isSome = true →
        (node, channel) ∉ ((cabling.add link).endsFrom rest).map
          fun cableEnd => (cableEnd.node, cableEnd.channel) := by
      intro node channel hsome hmem
      obtain ⟨cableEnd, hend, heq⟩ := List.mem_map.1 hmem
      obtain ⟨rfl, rfl⟩ := Prod.mk.inj heq
      have hnone := ((mem_endsFrom_iff (hsound.add hroom) (hroom.add hsound)).1 hend).1
      rw [hnone] at hsome
      exact absurd hsome (by simp)
    have hsecond : (cabling.add link).farEnd? link.2 (cabling.nextChannel link.2) =
        some (link.1, cabling.nextChannel link.1) := by
      rw [farEnd?_add, if_pos ⟨rfl, rfl⟩]
    have hfirst := (hsound.add hroom).symmetric hsecond
    simp only [endsFrom, nextEnds, List.cons_append, List.nil_append, List.map_cons,
      List.nodup_cons, List.mem_cons, not_or]
    refine ⟨⟨?_, hfresh _ _ (by rw [hfirst]; rfl)⟩, hfresh _ _ (by rw [hsecond]; rfl), hrest⟩
    intro heq
    exact hdistinct link List.mem_cons_self (Prod.mk.inj heq).1

end MeshFormation.Cabling
