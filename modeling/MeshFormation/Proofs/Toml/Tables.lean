import MeshFormation.Toml.Document

/-!
# What one key of a table depends on

A setting and a section change the value of one key of the table they belong to, the head of their
path, and look at no other. So the settings of some keys make up the same values whatever other
settings stand between them, and they are put into place in any order if each key is set once.
-/

namespace MeshFormation.Toml

variable {key other : String} {path : List String} {value found : Value}
  {entries others next : Entries} {known : List String} {settings : List Setting}
  {fields table : List (String × Value)}

namespace Entries

theorem find?_cons (entry : String × Value) (rest : Entries) (other : String) :
    find? (entry :: rest) other = if other = entry.1 then some entry.2 else find? rest other := by
  rw [find?, List.lookup_cons, find?]
  by_cases hsame : other = entry.1
  · simp [hsame]
  · rw [beq_eq_false_iff_ne.2 hsame, if_neg hsame]

theorem find?_put (entries : Entries) (key : String) (value : Value) (other : String) :
    find? (put entries key value) other =
      if other = key then some value else find? entries other := by
  induction entries with
  | nil => rw [put, find?_cons]
  | cons entry rest ih =>
    rw [put]
    split
    · rename_i hentry
      rw [find?_cons, find?_cons, hentry]
      split <;> rfl
    · rename_i hentry
      rw [find?_cons, find?_cons, ih]
      by_cases hkey : other = key
      · rw [if_pos hkey, if_neg fun h => hentry (h.symm.trans hkey), if_pos hkey]
      · rw [if_neg hkey, if_neg hkey]

theorem find?_put_self (entries : Entries) (key : String) (value : Value) :
    find? (put entries key value) key = some value := by
  rw [find?_put, if_pos rfl]

theorem find?_put_ne (entries : Entries) (value : Value) (h : other ≠ key) :
    find? (put entries key value) other = find? entries other := by
  rw [find?_put, if_neg h]

end Entries

/-! ## Local steps -/

/-- A step looks at the value of one key only and changes no other. -/
def Local (key : String) (step : Entries → Option Entries) : Prop :=
  ∀ found, ∃ result : Option Value, ∀ entries, Entries.find? entries key = found →
    step entries = result.map (Entries.put entries key)

theorem local_assign (isOpen : Bool) (key : String) (path : List String) (value : Value) :
    Local key (Entries.assign isOpen (key :: path) value) := by
  intro found
  cases path with
  | nil =>
    refine ⟨if isOpen && found.isNone then some value else none, ?_⟩
    rintro entries rfl
    rw [Entries.assign]
    split <;> rfl
  | cons next path =>
    cases found with
    | none =>
      refine ⟨(Entries.assign true (next :: path) value []).map (.table .dotted),
        fun entries h => ?_⟩
      simp [Entries.assign, h, Function.comp_def]
    | some found =>
      cases found with
      | tables elements =>
        cases hlast : elements.getLast? with
        | none => exact ⟨none, fun entries h => by simp [Entries.assign, h, hlast]⟩
        | some last =>
          refine ⟨(Entries.assign false (next :: path) value last).map fun last =>
            .tables (elements.dropLast ++ [last]), fun entries h => ?_⟩
          simp [Entries.assign, h, hlast, Function.comp_def]
      | table origin sub =>
        cases origin with
        | dotted =>
          refine ⟨(Entries.assign true (next :: path) value sub).map (.table .dotted),
            fun entries h => ?_⟩
          simp [Entries.assign, h, Function.comp_def]
        | implied =>
          refine ⟨(Entries.assign false (next :: path) value sub).map (.table .implied),
            fun entries h => ?_⟩
          simp [Entries.assign, h, Function.comp_def]
        | header | closed => exact ⟨none, fun entries h => by simp [Entries.assign, h]⟩
      | string | integer | other | array =>
        exact ⟨none, fun entries h => by simp [Entries.assign, h]⟩

theorem local_updateAt (change : Option Value → Option Value) (key : String) (path : List String) :
    Local key (Entries.updateAt change (key :: path)) := by
  intro found
  cases path with
  | nil =>
    refine ⟨change found, ?_⟩
    rintro entries rfl
    rw [Entries.updateAt]
  | cons next path =>
    cases found with
    | none =>
      refine ⟨(Entries.updateAt change (next :: path) []).map (.table .implied),
        fun entries h => ?_⟩
      simp [Entries.updateAt, h, Function.comp_def]
    | some found =>
      cases found with
      | tables elements =>
        cases hlast : elements.getLast? with
        | none => exact ⟨none, fun entries h => by simp [Entries.updateAt, h, hlast]⟩
        | some last =>
          refine ⟨(Entries.updateAt change (next :: path) last).map fun last =>
            .tables (elements.dropLast ++ [last]), fun entries h => ?_⟩
          simp [Entries.updateAt, h, hlast, Function.comp_def]
      | table origin sub =>
        refine ⟨if origin = .closed then none
          else (Entries.updateAt change (next :: path) sub).map (.table origin),
          fun entries h => ?_⟩
        cases origin <;> simp [Entries.updateAt, h, Function.comp_def]
      | string | integer | other | array =>
        exact ⟨none, fun entries h => by simp [Entries.updateAt, h]⟩

/-- Outside of the known keys, two tables say the same. -/
def AgreeOff (known : List String) (entries others : Entries) : Prop :=
  ∀ key, key ∉ known → Entries.find? entries key = Entries.find? others key

theorem Local.find?_eq {step : Entries → Option Entries} (h : Local key step)
    (hstep : step entries = some next) (hne : other ≠ key) :
    Entries.find? next other = Entries.find? entries other := by
  obtain ⟨result, hresult⟩ := h (Entries.find? entries key)
  rw [hresult entries rfl] at hstep
  obtain ⟨value, -, rfl⟩ := Option.map_eq_some_iff.1 hstep
  exact Entries.find?_put_ne entries value hne

/-- A step at an unknown key does the same to tables that agree outside of the known keys, and
leaves the known ones as they are. -/
theorem Local.agreeOff {step : Entries → Option Entries} {after : Entries} (h : Local key step)
    (hkey : key ∉ known) (hagree : AgreeOff known entries others)
    (hstep : step others = some after) :
    ∃ next, step entries = some next ∧ AgreeOff known next after ∧
      ∀ key ∈ known, Entries.find? next key = Entries.find? entries key := by
  obtain ⟨result, hresult⟩ := h (Entries.find? others key)
  rw [hresult others rfl] at hstep
  obtain ⟨value, hvalue, rfl⟩ := Option.map_eq_some_iff.1 hstep
  have hnext := hresult entries (hagree key hkey)
  rw [hvalue, Option.map_some] at hnext
  refine ⟨_, hnext, ?_, ?_⟩
  · intro other hother
    rw [Entries.find?_put, Entries.find?_put]
    split
    · rfl
    · exact hagree other hother
  · intro other hother
    apply Entries.find?_put_ne
    rintro rfl
    exact hkey hother

/-! ## Known and unknown settings -/

/-- Whether a setting is one of a known key, or of a key below it. -/
def isKnown (known : List String) (setting : Setting) : Bool := setting.1.head?.any known.contains

theorem assignAll_cons (entries : Entries) (setting : Setting) (settings : List Setting) :
    Entries.assignAll entries (setting :: settings) =
      (Entries.assign true setting.1 setting.2 entries).bind (Entries.assignAll · settings) :=
  List.foldlM_cons

theorem assign_of_new (h : Entries.find? entries key = none) :
    Entries.assign true [key] value entries = some (Entries.put entries key value) := by
  rw [Entries.assign, h]
  rfl

/-- The settings of known keys are not dotted, and none of these keys has a value so far. -/
def Fresh (known : List String) (entries : Entries) (settings : List Setting) : Prop :=
  ∀ setting ∈ settings, isKnown known setting = true →
    ∃ key, setting.1 = [key] ∧ Entries.find? entries key = none

theorem Fresh.put (h : Fresh known entries settings)
    (hnew : ∀ setting ∈ settings, isKnown known setting = true → setting.1 ≠ [key]) :
    Fresh known (Entries.put entries key value) settings := by
  intro setting hsetting hknown
  obtain ⟨first, hfirst, hnone⟩ := h setting hsetting hknown
  have hne : first ≠ key := by
    rintro rfl
    exact hnew setting hsetting hknown hfirst
  exact ⟨first, hfirst, by rwa [Entries.find?_put_ne _ _ hne]⟩

theorem Fresh.of_kept (h : Fresh known entries settings)
    (hkept : ∀ key ∈ known, Entries.find? next key = Entries.find? entries key) :
    Fresh known next settings := by
  intro setting hsetting hknown
  obtain ⟨name, hname, hnone⟩ := h setting hsetting hknown
  have hmember : name ∈ known := by simpa [isKnown, hname] using hknown
  exact ⟨name, hname, (hkept name hmember).trans hnone⟩

theorem AgreeOff.put (h : AgreeOff known entries others) (hkey : key ∈ known) :
    AgreeOff known (Entries.put entries key value) others := by
  intro other hother
  rw [Entries.find?_put_ne, h other hother]
  rintro rfl
  exact hother hkey

/-- Settings make one table out of another. The result agrees with a third one outside of the known
keys, and a known key has the value that it had or that is set. -/
structure MakesUp (known : List String) (settings : List Setting) (entries next rest : Entries) :
    Prop where
  assigned : Entries.assignAll entries settings = some next
  agree : AgreeOff known next rest
  find?_iff : ∀ key ∈ known, ∀ value, Entries.find? next key = some value ↔
    Entries.find? entries key = some value ∨ ([key], value) ∈ settings

/-- A known key is set at once. -/
theorem MakesUp.cons_known {rest : Entries}
    (h : MakesUp known settings (Entries.put entries key value) next rest)
    (hfree : Entries.find? entries key = none) :
    MakesUp known (([key], value) :: settings) entries next rest := by
  refine ⟨?_, h.agree, fun other hother found => ?_⟩
  · rw [assignAll_cons, assign_of_new hfree]
    exact h.assigned
  · rw [h.find?_iff other hother, Entries.find?_put, List.mem_cons]
    by_cases hsame : other = key
    · subst hsame
      simp [hfree, eq_comm]
    · simp [hsame]

/-- The setting of an unknown key does not touch the known ones. -/
theorem MakesUp.cons_unknown {first rest : Entries} (h : MakesUp known settings first next rest)
    (hfirst : Entries.assign true (key :: path) value entries = some first) (hkey : key ∉ known)
    (hkept : ∀ key ∈ known, Entries.find? first key = Entries.find? entries key) :
    MakesUp known ((key :: path, value) :: settings) entries next rest := by
  refine ⟨?_, h.agree, fun other hother found => ?_⟩
  · rw [assignAll_cons, hfirst]
    exact h.assigned
  · have hne : ¬([other] = key :: path ∧ found = value) := by
      rintro ⟨heq, -⟩
      exact hkey ((List.cons.inj heq).1 ▸ hother)
    rw [h.find?_iff other hother, hkept other hother, List.mem_cons, Prod.mk.injEq]
    simp only [hne, false_or]

/-- The settings of known keys, each of which is set once, make up the same values whatever other
settings stand between them. -/
theorem exists_makesUp {rest : Entries} (hfresh : Fresh known entries settings)
    (honce : ((settings.filter (isKnown known)).map (·.1)).Nodup)
    (hagree : AgreeOff known entries others)
    (hothers : Entries.assignAll others (settings.filter (!isKnown known ·)) = some rest) :
    ∃ next, MakesUp known settings entries next rest := by
  induction settings generalizing entries others with
  | nil =>
    obtain rfl := Option.some.inj hothers
    exact ⟨entries, rfl, hagree, by simp⟩
  | cons setting settings ih =>
    have hbelow : Fresh known entries settings := fun other hother =>
      hfresh other (List.mem_cons_of_mem _ hother)
    obtain ⟨path, value⟩ := setting
    by_cases hset : isKnown known (path, value) = true
    · obtain ⟨key, rfl, hfree⟩ := hfresh _ List.mem_cons_self hset
      have hkey : key ∈ known := by simpa [isKnown] using hset
      rw [List.filter_cons_of_pos hset, List.map_cons, List.nodup_cons] at honce
      have hnew : ∀ other ∈ settings, isKnown known other = true → other.1 ≠ [key] :=
        fun other hmem hother heq =>
          honce.1 (List.mem_map.2 ⟨other, List.mem_filter.2 ⟨hmem, hother⟩, heq⟩)
      rw [List.filter_cons_of_neg (by simp [hset])] at hothers
      obtain ⟨next, hnext⟩ := ih (hbelow.put hnew) honce.2 (hagree.put hkey) hothers
      exact ⟨next, hnext.cons_known hfree⟩
    · rw [List.filter_cons_of_neg hset] at honce
      rw [List.filter_cons_of_pos (by simpa using hset), assignAll_cons] at hothers
      obtain ⟨after, hafter, hbehind⟩ := Option.bind_eq_some_iff.1 hothers
      cases path with
      | nil => exact absurd hafter (by simp [Entries.assign])
      | cons key path =>
        have hkey : key ∉ known := by simpa [isKnown] using hset
        obtain ⟨first, hfirst, hagree', hkept⟩ :=
          (local_assign true key path value).agreeOff hkey hagree hafter
        obtain ⟨next, hnext⟩ := ih (hbelow.of_kept hkept) honce hagree' hbehind
        exact ⟨next, hnext.cons_unknown hfirst hkey hkept⟩

/-- Settings of unknown keys leave the known ones as they are. -/
theorem find?_assignAll_unknown
    (h : Entries.assignAll entries (settings.filter (!isKnown known ·)) = some next)
    (hkey : key ∈ known) : Entries.find? next key = Entries.find? entries key := by
  induction settings generalizing entries with
  | nil => rw [← Option.some.inj h]
  | cons setting settings ih =>
    by_cases hset : isKnown known setting = true
    · rw [List.filter_cons_of_neg (by simp [hset])] at h
      exact ih h
    · rw [List.filter_cons_of_pos (by simpa using hset), assignAll_cons] at h
      obtain ⟨after, hafter, hbehind⟩ := Option.bind_eq_some_iff.1 h
      obtain ⟨path, value⟩ := setting
      cases path with
      | nil => exact absurd hafter (by simp [Entries.assign])
      | cons head path =>
        have hne : key ≠ head := by
          rintro rfl
          exact hset (by simpa [isKnown] using hkey)
        rw [ih hbehind, (local_assign true head path value).find?_eq hafter hne]

/-- The setting of a key that is not dotted. -/
def plain (field : String × Value) : Setting := ([field.1], field.2)

/-- Among the known keys, a table has exactly the given fields. -/
def Carries (known : List String) (entries : Entries) (fields : List (String × Value)) : Prop :=
  ∀ key ∈ known, ∀ value, Entries.find? entries key = some value ↔ (key, value) ∈ fields

/-- Settings of fields, in any order and between other settings, make up a table with these
fields. -/
theorem exists_assignAll_of_perm {rest : Entries}
    (hperm : (settings.filter (isKnown known)).Perm (fields.map plain))
    (hnodup : (fields.map (·.1)).Nodup)
    (hrest : Entries.assignAll [] (settings.filter (!isKnown known ·)) = some rest) :
    ∃ entries, Entries.assignAll [] settings = some entries ∧ AgreeOff known entries rest ∧
      Carries known entries fields := by
  have hmem : ∀ {setting}, setting ∈ settings → isKnown known setting = true →
      ∃ field ∈ fields, plain field = setting := fun hsetting hknown =>
    List.mem_map.1 (hperm.mem_iff.1 (List.mem_filter.2 ⟨hsetting, hknown⟩))
  have honce : ((settings.filter (isKnown known)).map (·.1)).Nodup := by
    have hpaths : (fields.map plain).map (·.1) = (fields.map (·.1)).map ([·]) := by
      simp [plain]
    rw [(hperm.map _).nodup_iff, hpaths]
    exact List.Pairwise.map _ (fun _ _ hne heq => hne (List.cons.inj heq).1) hnodup
  have hfresh : Fresh known [] settings := by
    intro setting hsetting hknown
    obtain ⟨field, -, rfl⟩ := hmem hsetting hknown
    exact ⟨field.1, rfl, rfl⟩
  have hempty : AgreeOff known [] [] := fun _ _ => rfl
  obtain ⟨entries, hmade⟩ := exists_makesUp hfresh honce hempty hrest
  refine ⟨entries, hmade.assigned, hmade.agree, fun key hkey value =>
    (hmade.find?_iff key hkey value).trans ?_⟩
  constructor
  · rintro (hnone | hsetting)
    · exact absurd hnone (by simp [Entries.find?])
    · obtain ⟨field, hfield, heq⟩ := hmem hsetting (by simpa [isKnown] using hkey)
      obtain ⟨hpath, rfl⟩ := Prod.mk.inj heq
      rwa [← (List.cons.inj hpath).1]
  · intro hfield
    have hsetting := hperm.mem_iff.2 (List.mem_map_of_mem hfield)
    exact .inr (List.mem_filter.1 hsetting).1

/-! ## Fields -/

/-- Fields, each key once, which among the known keys are the given ones in any order. -/
structure Tabulates (known : List String) (table fields : List (String × Value)) : Prop where
  nodup : (table.map (·.1)).Nodup
  perm : (table.filter (known.contains ·.1)).Perm fields

theorem filter_isKnown_plain (known : List String) (table : List (String × Value)) :
    (table.map plain).filter (isKnown known) = (table.filter (known.contains ·.1)).map plain := by
  rw [List.filter_map]
  rfl

theorem filter_unknown_plain (known : List String) (table : List (String × Value)) :
    (table.map plain).filter (!isKnown known ·) =
      (table.filter (!known.contains ·.1)).map plain := by
  rw [List.filter_map]
  rfl

/-- Fields whose keys differ make up a table. All of their keys are known if these are the known
ones. -/
theorem exists_assignAll_plain (h : (table.map (·.1)).Nodup) :
    ∃ entries, Entries.assignAll [] (table.map plain) = some entries := by
  have hall : ∀ field ∈ table, (table.map (·.1)).contains field.1 = true := fun field hfield =>
    List.contains_iff_mem.2 (List.mem_map_of_mem hfield)
  have hknown : ((table.map plain).filter (isKnown (table.map (·.1)))).Perm (table.map plain) := by
    rw [filter_isKnown_plain, List.filter_eq_self.2 hall]
  have hunknown :
      Entries.assignAll [] ((table.map plain).filter (!isKnown (table.map (·.1)) ·)) = some [] := by
    have hnone : table.filter (!(table.map (·.1)).contains ·.1) = [] := by
      apply List.filter_eq_nil_iff.2
      intro field hfield
      rw [hall field hfield]
      decide
    rw [filter_unknown_plain, hnone]
    rfl
  obtain ⟨entries, hentries, -⟩ := exists_assignAll_of_perm hknown h hunknown
  exact ⟨entries, hentries⟩

theorem tabulates_self (hnodup : (fields.map (·.1)).Nodup)
    (hknown : ∀ field ∈ fields, known.contains field.1 = true) : Tabulates known fields fields := by
  refine ⟨hnodup, ?_⟩
  rw [List.filter_eq_self.2 hknown]

theorem Tabulates.exists_unknown (h : Tabulates known table fields) :
    ∃ entries, Entries.assignAll [] ((table.map plain).filter (!isKnown known ·)) =
      some entries := by
  rw [filter_unknown_plain]
  apply exists_assignAll_plain
  exact h.nodup.sublist (List.filter_sublist.map _)

theorem Tabulates.perm_plain (h : Tabulates known table fields) :
    ((table.map plain).filter (isKnown known)).Perm (fields.map plain) := by
  rw [filter_isKnown_plain]
  exact h.perm.map plain

/-! ## Sections -/

def Statement.ofField (field : String × Value) : Statement := .setting [field.1] field.2

theorem groupStatements_fields (table : List (String × Value)) (statements : List Statement) :
    groupStatements (table.map Statement.ofField ++ statements) =
      (table.map plain ++ (groupStatements statements).1, (groupStatements statements).2) := by
  induction table with
  | nil => rfl
  | cons field table ih =>
    rw [List.map_cons, List.cons_append, Statement.ofField, groupStatements, ih]
    rfl


/-- A section changes the value at its path, or its settings contradict each other. -/
theorem addTo_cases (part : Section) :
    (∀ entries, part.addTo entries = none) ∨
      ∃ change, ∀ entries, part.addTo entries = Entries.updateAt change part.path entries := by
  unfold Section.addTo
  cases part.isElement with
  | true =>
    cases Entries.assignAll [] part.settings with
    | none => exact .inl fun _ => rfl
    | some element => exact .inr ⟨_, fun _ => rfl⟩
  | false => exact .inr ⟨_, fun _ => rfl⟩

theorem local_addTo {part : Section} (h : part.path = key :: path) : Local key (part.addTo ·) := by
  rcases addTo_cases part with hnone | ⟨change, hchange⟩
  · exact fun _ => ⟨none, fun entries _ => hnone entries⟩
  · intro found
    obtain ⟨result, hresult⟩ := local_updateAt change key path found
    refine ⟨result, fun entries hentries => ?_⟩
    exact (hchange entries).trans (h ▸ hresult entries hentries)

end MeshFormation.Toml
