import MeshFormation.Router
import MeshFormation.Proofs.Ledger.Lookup

/-!
# What the text of a route tells

A route is written as its hops in decimal digits, with an arrow between every two. There is no arrow
within digits, so the text can be taken apart again: the digits in front of its first arrow are the
first hop, and those behind its last arrow are the last one. Two routes with the same text are
therefore the same, and the texts in a snapshot stand for the routes themselves.
-/

namespace MeshFormation

/-! ## Digits in front of an arrow and behind it -/

/-- Digits end where a text has no digit any more. -/
theorem eq_of_digits_append {digits other rest rest' : List Char} {c c' : Char}
    (hdigits : ∀ d ∈ digits, d.isDigit = true) (hother : ∀ d ∈ other, d.isDigit = true)
    (hc : c.isDigit = false) (hc' : c'.isDigit = false)
    (h : digits ++ c :: rest = other ++ c' :: rest') : digits = other := by
  have htaken := congrArg (List.takeWhile Char.isDigit) h
  rw [List.takeWhile_append_of_pos hdigits, List.takeWhile_append_of_pos hother] at htaken
  simpa [hc, hc'] using htaken

namespace Rank

variable {first second : Rank} {front front' rest rest' : String}

theorem toList_toString (rank : Rank) : (toString rank).toList = Nat.toDigits 10 rank.toNat :=
  Nat.toList_repr

theorem isDigit_of_mem_toString (rank : Rank) : ∀ c ∈ (toString rank).toList, c.isDigit = true := by
  rw [toList_toString]
  exact fun c hc => Nat.isDigit_of_mem_toDigits (by decide) (by decide) hc

theorem eq_of_toList_toString (h : (toString first).toList = (toString second).toList) :
    first = second := by
  rw [toList_toString, toList_toString] at h
  have hnumber := congrArg (Nat.ofDigitChars 10 · 0) h
  simp only [Nat.ofDigitChars_ten_toDigits] at hnumber
  exact UInt32.toNat_inj.1 hnumber

/-- The rank in front of the first arrow of a text. -/
theorem eq_of_toString_arrow
    (h : toString first ++ "->" ++ rest = toString second ++ "->" ++ rest') : first = second := by
  have hlist := congrArg String.toList h
  simp only [String.toList_append, List.append_assoc] at hlist
  exact eq_of_toList_toString <|
    eq_of_digits_append (isDigit_of_mem_toString first) (isDigit_of_mem_toString second)
      rfl rfl hlist

/-- The rank behind the last arrow of a text, and what is in front of that arrow. -/
theorem eq_of_arrow_toString
    (h : front ++ "->" ++ toString first = front' ++ "->" ++ toString second) :
    front = front' ∧ first = second := by
  -- Read backwards, the text starts with the digits of its last rank.
  have hreverse := congrArg (fun text => text.toList.reverse) h
  simp only [String.toList_append, List.reverse_append] at hreverse
  have hdigits := eq_of_digits_append
    (fun d hd => isDigit_of_mem_toString first d (List.mem_reverse.1 hd))
    (fun d hd => isDigit_of_mem_toString second d (List.mem_reverse.1 hd)) rfl rfl hreverse
  obtain rfl := eq_of_toList_toString (List.reverse_inj.1 hdigits)
  rw [String.append_left_inj, String.append_left_inj] at h
  exact ⟨h, rfl⟩

end Rank

/-! ## The text of a route -/

namespace Route

variable {first second : Route}

/-- The text of a route is that of its hops, with arrows between them. -/
theorem text_eq_intercalate (route : Route) :
    route.text = "->".intercalate (route.hops.map toString) := by
  induction route with
  | direct origin destination => simp [text, hops]
  | relayed base destination ih =>
    have hne : base.hops.map toString ≠ [] := by
      rw [Ne, List.map_eq_nil_iff, ← List.length_eq_zero_iff, length_hops]
      exact Nat.succ_ne_zero _
    rw [text, hops, List.map_append, String.intercalate_append_of_ne_nil hne (by simp), ← ih]
    rfl

example : (relayed (direct 1 23) 4).text = "1->23->4" := by decide

theorem exists_text_eq_origin (route : Route) :
    ∃ rest, route.text = toString route.origin ++ "->" ++ rest := by
  induction route with
  | direct origin destination => exact ⟨_, rfl⟩
  | relayed base destination ih =>
    obtain ⟨rest, hrest⟩ := ih
    refine ⟨rest ++ "->" ++ toString destination, ?_⟩
    rw [text, hrest, origin]
    simp only [String.append_assoc]

theorem exists_text_eq_destination (route : Route) :
    ∃ front, route.text = front ++ "->" ++ toString route.destination := by
  cases route with
  | direct origin destination => exact ⟨toString origin, rfl⟩
  | relayed base destination => exact ⟨base.text, rfl⟩

/-- A rank alone is no route. -/
theorem text_ne_toString (route : Route) (rank : Rank) : route.text ≠ toString rank := by
  intro heq
  obtain ⟨rest, hrest⟩ := route.exists_text_eq_origin
  have hdash : '-' ∈ (toString rank).toList := by
    rw [← heq, hrest]
    simp
  exact absurd (rank.isDigit_of_mem_toString '-' hdash) (by decide)

theorem eq_of_text (h : first.text = second.text) : first = second := by
  induction first generalizing second with
  | direct origin destination =>
    cases second with
    | direct origin' destination' =>
      obtain ⟨horigin, rfl⟩ := Rank.eq_of_arrow_toString h
      rw [Rank.eq_of_toList_toString (congrArg String.toList horigin)]
    | relayed base' destination' =>
      obtain ⟨horigin, -⟩ := Rank.eq_of_arrow_toString h
      exact absurd horigin.symm (base'.text_ne_toString origin)
  | relayed base destination ih =>
    cases second with
    | direct origin' destination' =>
      obtain ⟨horigin, -⟩ := Rank.eq_of_arrow_toString h
      exact absurd horigin (base.text_ne_toString origin')
    | relayed base' destination' =>
      obtain ⟨hbase, rfl⟩ := Rank.eq_of_arrow_toString h
      rw [ih hbase]

theorem text_eq_iff : first.text = second.text ↔ first.hops = second.hops := by
  constructor
  · intro h
    rw [eq_of_text h]
  · intro h
    rw [text_eq_intercalate, text_eq_intercalate, h]

/-- The digits in front of the first arrow are the first hop. -/
theorem exists_text_eq_arrow_iff {route : Route} {rank : Rank} :
    (∃ rest, route.text = toString rank ++ "->" ++ rest) ↔ route.hops.head? = some rank := by
  rw [head?_hops, Option.some_inj]
  constructor
  · rintro ⟨rest, htext⟩
    obtain ⟨rest', htext'⟩ := route.exists_text_eq_origin
    exact Rank.eq_of_toString_arrow (htext'.symm.trans htext)
  · rintro rfl
    exact route.exists_text_eq_origin

/-- The digits behind the last arrow are the last hop. -/
theorem exists_arrow_eq_text_iff {route : Route} {rank : Rank} :
    (∃ front, route.text = front ++ "->" ++ toString rank) ↔ route.hops.getLast? = some rank := by
  rw [getLast?_hops, Option.some_inj]
  constructor
  · rintro ⟨front, htext⟩
    obtain ⟨front', htext'⟩ := route.exists_text_eq_destination
    exact (Rank.eq_of_arrow_toString (htext'.symm.trans htext)).2
  · rintro rfl
    exact route.exists_text_eq_destination

end Route

/-! ## The texts in a snapshot -/

namespace Ledger

variable {first second : Ledger} {peer : Rank} {text : String}

theorem mem_routes_iff {ledger : Ledger} : (peer, text) ∈ ledger.routes ↔
    ∃ route, ledger.route? peer = some route ∧ route.text = text := by
  rw [routes, List.mem_filterMap]
  constructor
  · rintro ⟨⟨key, entry⟩, hrow, hmap⟩
    obtain ⟨route, hroute, heq⟩ := Option.map_eq_some_iff.1 hmap
    obtain ⟨rfl, rfl⟩ := Prod.mk.inj heq
    exact ⟨route, by rw [route?, entry_of_mem_rows hrow, hroute], rfl⟩
  · rintro ⟨route, hroute, rfl⟩
    rw [route?, Ledger.entry] at hroute
    cases hget : ledger.get? peer with
    | none =>
      rw [hget] at hroute
      exact absurd hroute (by simp [Connectivity.blank])
    | some entry =>
      rw [hget, Option.getD_some] at hroute
      exact ⟨_, Table.get?_eq_some_iff.1 hget, by simp [hroute]⟩

/-- The routes are listed in the order of their peers. -/
theorem pairwise_routes (ledger : Ledger) : ledger.routes.Pairwise (·.1 < ·.1) := by
  refine ledger.entries.ascending.filterMap _ fun row row' hlt listed hlisted listed' hlisted' => ?_
  obtain ⟨route, -, rfl⟩ := Option.map_eq_some_iff.1 hlisted
  obtain ⟨route', -, rfl⟩ := Option.map_eq_some_iff.1 hlisted'
  exact hlt

/-- Two ledgers list the same texts only if they hold the same routes. -/
theorem routes_eq_iff :
    first.routes = second.routes ↔ ∀ peer, first.route? peer = second.route? peer := by
  constructor
  · intro h peer
    have hsame : ∀ {one other : Ledger} {route}, one.routes = other.routes →
        one.route? peer = some route → other.route? peer = some route := by
      intro one other route heq hroute
      obtain ⟨found, hfound, htext⟩ := mem_routes_iff.1
        (heq ▸ mem_routes_iff.2 ⟨route, hroute, rfl⟩)
      rwa [Route.eq_of_text htext] at hfound
    exact Option.ext fun route => ⟨hsame h, hsame h.symm⟩
  · intro h
    have hnodup : ∀ ledger : Ledger, ledger.routes.Nodup := by
      intro ledger
      refine ledger.pairwise_routes.imp ?_
      rintro listed listed' hlt rfl
      exact UInt32.lt_irrefl _ hlt
    have hperm : first.routes.Perm second.routes := by
      rw [List.perm_ext_iff_of_nodup (hnodup first) (hnodup second)]
      rintro ⟨peer, text⟩
      rw [mem_routes_iff, mem_routes_iff, h peer]
    exact hperm.eq_of_pairwise
      (fun _ _ _ _ hlt hgt => absurd hgt (UInt32.not_lt.2 (UInt32.le_of_lt hlt)))
      first.pairwise_routes second.pairwise_routes

end Ledger

/-- The text of a route tells its hops. Routes with one text have the same hops, so the texts in two
snapshots are the same exactly if the routers hold the same routes. The text starts with a rank and
an arrow exactly if the rank is the first hop, and ends with an arrow and a rank exactly if the rank
is the last one. -/
theorem texts_identify_routes :
    (∀ first second : Route, first.text = second.text ↔ first.hops = second.hops) ∧
      (∀ first second : Router, first.snapshot.routes = second.snapshot.routes ↔
        ∀ peer, first.node.ledger.route? peer = second.node.ledger.route? peer) ∧
      (∀ (route : Route) (rank : Rank),
        (∃ rest, route.text = toString rank ++ "->" ++ rest) ↔ route.hops.head? = some rank) ∧
      ∀ (route : Route) (rank : Rank),
        (∃ front, route.text = front ++ "->" ++ toString rank) ↔
          route.hops.getLast? = some rank := by
  refine ⟨?_, ?_, ?_, ?_⟩
  · exact fun first second => Route.text_eq_iff
  · exact fun first second => Ledger.routes_eq_iff
  · exact fun route rank => Route.exists_text_eq_arrow_iff
  · exact fun route rank => Route.exists_arrow_eq_text_iff

end MeshFormation
