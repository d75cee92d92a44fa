import LuaGlue.Config
import LuaGlue.Proofs.Conversion
import LuaGlue.Proofs.OrderedMap
import LuaGlue.Proofs.Toml

/-!
# The conversions of a configuration

The entries of a configuration are attempts to add conversions to those of the Godot types. They
give conversions exactly if every template holds its placeholder; otherwise the first entry that
lacks it is the reason for the failure.
-/

namespace LuaGlue

open ConversionTable (lastFor?)

namespace Conversions

def refused? (wanted : List Conversion) : Option Conversion :=
  wanted.find? fun c => ¬c.HoldsPlaceholder

/-- What attempts end with if the first that fails stops them. -/
def outcome (cs : Conversions) (wanted : List Conversion) : Except Failure Conversions :=
  match refused? wanted with
  | some c => .error (.missingPlaceholder c.direction c.typeName)
  | none => .ok (cs.attemptAll wanted)

theorem outcome_cons (cs : Conversions) (c : Conversion) (wanted : List Conversion) :
    cs.outcome (c :: wanted) =
      if c.HoldsPlaceholder then (cs.insert c).outcome wanted
      else .error (.missingPlaceholder c.direction c.typeName) := by
  unfold outcome refused? attemptAll
  rw [List.foldl_cons, attempt_eq]
  split_ifs with hholds
  · rw [List.find?_cons_of_neg (by simpa using hholds)]
  · rw [List.find?_cons_of_pos (by simpa using hholds)]

theorem outcome_append (cs : Conversions) (wanted wanted' : List Conversion) :
    cs.outcome (wanted ++ wanted') =
      (cs.outcome wanted).bind fun added => added.outcome wanted' := by
  induction wanted generalizing cs with
  | nil => rfl
  | cons c wanted ih =>
    rw [List.cons_append, outcome_cons, outcome_cons]
    split_ifs
    · exact ih (cs.insert c)
    · rfl

def wantedOf (direction : Direction) (entries : OrderedMap String String) : List Conversion :=
  entries.map fun entry => ⟨entry.1, direction, entry.2⟩

theorem addAll_eq (cs : Conversions) (direction : Direction) (entries : OrderedMap String String) :
    cs.addAll direction entries = cs.outcome (wantedOf direction entries) := by
  induction entries generalizing cs with
  | nil => rfl
  | cons entry rest ih =>
    obtain ⟨typeName, template⟩ := entry
    have hadd := add_eq cs ⟨typeName, direction, template⟩
    dsimp only at hadd
    rw [addAll, hadd, wantedOf, List.map_cons, outcome_cons]
    split_ifs
    · exact ih _
    · rfl

/-- Where each type has one entry, the last one of a type is its entry. -/
theorem lastFor?_wantedOf {direction : Direction} {entries : OrderedMap String String}
    (distinct : entries.keys.Nodup) (typeName : String) :
    lastFor? (wantedOf direction entries) typeName =
      (entries.get? typeName).map (Conversion.mk typeName direction) := by
  induction entries with
  | nil => rfl
  | cons entry rest ih =>
    obtain ⟨hfirst, hrest⟩ := List.nodup_cons.1 distinct
    rw [wantedOf, List.map_cons, ConversionTable.lastFor?_cons]
    change (lastFor? (wantedOf direction rest) typeName).or _ = _
    rw [ih hrest, OrderedMap.get?]
    by_cases h : entry.1 = typeName
    · rw [if_pos h, if_pos h, OrderedMap.get?_eq_none_iff.2 (h ▸ hfirst), h]
      rfl
    · rw [if_neg h, if_neg h, Option.or_none]

end Conversions

namespace Toml

theorem keyed_of_mem_record? {keys : List String} {origin : TableOrigin} {entries : Entries}
    {values : List (Option Toml)} (h : KeyedEntries entries)
    (hread : (Toml.table origin entries).record? keys = some values) {value : Toml}
    (hmem : some value ∈ values) : value.Keyed := by
  rw [record?] at hread
  split_ifs at hread
  cases hread
  obtain ⟨key, -, hget⟩ := List.mem_map.1 hmem
  exact h.each _ (OrderedMap.mem_of_get? hget)

theorem nodup_keys_texts? {value : Toml} (h : value.Keyed) {texts : OrderedMap String String}
    (hread : value.texts? = some texts) : texts.keys.Nodup := by
  cases h with
  | moment text =>
    cases hread
    exact List.nodup_singleton _
  | @table origin entries nodup each =>
    suffices hkeys : texts.keys = entries.keys from hkeys ▸ nodup
    clear nodup each
    rw [texts?] at hread
    induction entries generalizing texts with
    | nil =>
      cases hread
      rfl
    | cons entry rest ih =>
      rw [List.mapM_cons] at hread
      obtain ⟨first, hfirst, hread⟩ := Option.bind_eq_some_iff.1 hread
      obtain ⟨others, hothers, hread⟩ := Option.bind_eq_some_iff.1 hread
      obtain ⟨text, -, rfl⟩ := Option.map_eq_some_iff.1 hfirst
      cases hread
      exact congrArg (entry.1 :: ·) (ih hothers)
  | _ => cases hread

theorem nodup_keys_optionalTexts? {value? : Option Toml} (h : ∀ value ∈ value?, value.Keyed)
    {texts? : Option (OrderedMap String String)}
    (hread : optional? Toml.texts? value? = some texts?) : (texts?.getD []).keys.Nodup := by
  cases value? with
  | none =>
    cases hread
    exact List.nodup_nil
  | some value =>
    obtain ⟨texts, htexts, rfl⟩ := Option.map_eq_some_iff.1 hread
    exact nodup_keys_texts? (h value rfl) htexts

end Toml

namespace Config

open Conversions (Base wantedOf refused? attemptAll)

def given (c : Config) : Direction → OrderedMap String String
  | .extract => c.extract
  | .push => c.push

def wanted (c : Config) : List Conversion := wantedOf .extract c.extract ++ wantedOf .push c.push

theorem conversions_eq (c : Config) : c.conversions = Conversions.godot.outcome c.wanted := by
  unfold conversions wanted
  rw [Conversions.outcome_append, ← Conversions.addAll_eq]
  cases Conversions.godot.addAll .extract c.extract with
  | error failure => rfl
  | ok extracting => exact Conversions.addAll_eq extracting .push c.push

theorem forall_wanted_iff (c : Config) :
    (∀ w ∈ c.wanted, w.HoldsPlaceholder) ↔
      (∀ entry ∈ c.extract, StandsIn "{slot}" entry.2) ∧
        ∀ entry ∈ c.push, StandsIn "{value}" entry.2 := by
  unfold wanted wantedOf
  rw [List.forall_mem_append, List.forall_mem_map, List.forall_mem_map]
  rfl

theorem refused?_eq_none_iff (c : Config) :
    refused? c.wanted = none ↔ ∀ w ∈ c.wanted, w.HoldsPlaceholder := by
  unfold refused?
  rw [List.find?_eq_none]
  simp

/-- The entries of the other direction are no attempts in this one. -/
theorem succeeding_wanted {c : Config} (h : ∀ w ∈ c.wanted, w.HoldsPlaceholder)
    (direction : Direction) :
    Conversions.succeeding c.wanted direction = wantedOf direction (c.given direction) := by
  have hown : ∀ other entries, (∀ w ∈ wantedOf other entries, w.HoldsPlaceholder) →
      Conversions.succeeding (wantedOf other entries) direction =
        if other = direction then wantedOf other entries else [] := by
    intro other entries hholds
    unfold Conversions.succeeding
    have hdirection : ∀ w ∈ wantedOf other entries, w.direction = other := by
      intro w hw
      obtain ⟨entry, -, rfl⟩ := List.mem_map.1 hw
      rfl
    split_ifs with hsame
    · refine List.filter_eq_self.2 fun w hw => ?_
      simp [hdirection w hw, hsame, hholds w hw]
    · refine List.filter_eq_nil_iff.2 fun w hw => ?_
      simp [hdirection w hw, hsame]
  obtain ⟨hextract, hpush⟩ := List.forall_mem_append.1 h
  have happend : Conversions.succeeding c.wanted direction =
      Conversions.succeeding (wantedOf .extract c.extract) direction ++
        Conversions.succeeding (wantedOf .push c.push) direction :=
    List.filter_append ..
  rw [happend, hown _ _ hextract, hown _ _ hpush]
  cases direction with
  | extract => exact List.append_nil _
  | push => rfl

structure Converts (c : Config) : Prop where
  ok_iff : (∃ cs, c.conversions = .ok cs) ↔
    (∀ entry ∈ c.extract, StandsIn "{slot}" entry.2) ∧
      ∀ entry ∈ c.push, StandsIn "{value}" entry.2
  get? : ∀ cs, c.conversions = .ok cs → ∀ direction typeName,
    (cs.table direction).get? typeName =
      (((c.given direction).get? typeName).map (Conversion.mk typeName direction)).or
        ((Conversions.godot.table direction).get? typeName)
  /-- The templates for extracting are looked at before those for pushing. -/
  error_iff : ∀ failure, c.conversions = .error failure ↔
    ∃ first, refused? c.wanted = some first ∧
      failure = .missingPlaceholder first.direction first.typeName

theorem converts {c : Config} (distinct : ∀ direction, (c.given direction).keys.Nodup) :
    c.Converts := by
  have hsome := c.refused?_eq_none_iff
  refine ⟨?_, fun cs hcs direction typeName => ?_, fun failure => ?_⟩
  · rw [← forall_wanted_iff, ← hsome, conversions_eq, Conversions.outcome]
    cases refused? c.wanted <;> simp
  · rw [conversions_eq, Conversions.outcome] at hcs
    split at hcs
    · cases hcs
    · next hnone =>
      cases hcs
      rw [Conversions.table_attemptAll, ConversionTable.get?_insertAll,
        succeeding_wanted (hsome.1 hnone), Conversions.lastFor?_wantedOf (distinct direction)]
  · rw [conversions_eq, Conversions.outcome]
    cases refused? c.wanted <;> simp [eq_comm]

theorem nodup_keys_given_of_ofToml? {entries : Toml.Entries} (hentries : Toml.KeyedEntries entries)
    {c : Config} (h : ofToml? entries = some c) (direction : Direction) :
    (c.given direction).keys.Nodup := by
  unfold ofToml? at h
  obtain ⟨values, hvalues, h⟩ := Option.bind_eq_some_iff.1 h
  have hkeyed : ∀ value, some value ∈ values → value.Keyed :=
    fun value => Toml.keyed_of_mem_record? hentries hvalues
  split at h
  · obtain ⟨strict?, -, h⟩ := Option.bind_eq_some_iff.1 h
    obtain ⟨bindings?, -, h⟩ := Option.bind_eq_some_iff.1 h
    obtain ⟨extract?, hextract, h⟩ := Option.bind_eq_some_iff.1 h
    obtain ⟨push?, hpush, h⟩ := Option.bind_eq_some_iff.1 h
    obtain ⟨templates?, -, h⟩ := Option.bind_eq_some_iff.1 h
    obtain ⟨codes?, -, h⟩ := Option.bind_eq_some_iff.1 h
    obtain ⟨licenses?, -, h⟩ := Option.bind_eq_some_iff.1 h
    cases h
    cases direction with
    | extract =>
      refine Toml.nodup_keys_optionalTexts? ?_ hextract
      rintro value rfl
      exact hkeyed value (by simp)
    | push =>
      refine Toml.nodup_keys_optionalTexts? ?_ hpush
      rintro value rfl
      exact hkeyed value (by simp)
  · cases h

/-- A configuration that was read has one template for each type, so its conversions are as said. -/
theorem converts_of_read? {text : String} {base : Path} {c : Config}
    (h : read? text base = some c) : c.Converts := by
  obtain ⟨entries, hentries, h⟩ := Option.bind_eq_some_iff.1 h
  obtain ⟨parsed, hparsed, h⟩ := Option.bind_eq_some_iff.1 h
  cases h
  refine converts fun direction => ?_
  -- Seen from a folder, a configuration gives the same templates.
  have hgiven : (resolve base parsed).given direction = parsed.given direction := by
    cases direction <;> rfl
  rw [hgiven]
  exact nodup_keys_given_of_ofToml? (Toml.Reader.keyedEntries_of_document? hentries) hparsed _

/-- After any attempts to add conversions, and with the entries of any configuration, the last
attempt that succeeded for a type decides, and the two directions do not meet. -/
theorem conversions_lastWrites (base : Base) (attempts : List Conversion) (c : Config)
    (distinct : ∀ direction, (c.given direction).keys.Nodup) :
    (∀ direction, Conversions.HoldsLastWrites base.conversions attempts direction
        ((base.conversions.attemptAll attempts).table direction)) ∧
      (∀ (next : Conversion) (failure : Failure),
        (base.conversions.attemptAll attempts).add next.direction next.typeName next.template =
            .error failure ↔
          ¬next.HoldsPlaceholder ∧
            failure = .missingPlaceholder next.direction next.typeName) ∧
      c.Converts := by
  refine ⟨Conversions.holdsLastWrites base attempts, fun next failure => ?_, converts distinct⟩
  rw [Conversions.add_eq]
  split_ifs with hholds <;> simp [hholds, eq_comm]

/-- An override, an attempt without the placeholder, and a type for one direction. -/
def overridingAttempts : List Conversion := [
  ⟨"int", .extract, "luaL_checkinteger(L, {slot})"⟩,
  ⟨"int", .extract, "luaL_checkinteger(L, 2)"⟩,
  ⟨"Vector2", .push, "push_vector2(L, {value})"⟩]

def overridingConfig : Config :=
  { empty with
    extract := [("Vector2", "to_vector2(L, {slot})")]
    push := [("int", "push_int({value})"), ("Vector2", "push_vector2(L, ret)")] }

/-- The failed attempt does not count, the table of the other direction does not change, and the
configuration fails at the type whose template lacks its placeholder. -/
theorem overriding_lastWrites :
    (∀ direction, (overridingConfig.given direction).keys.Nodup) ∧
      ((Base.godot.conversions.attemptAll overridingAttempts).table .extract).get? "int" =
        some ⟨"int", .extract, "luaL_checkinteger(L, {slot})"⟩ ∧
      ((Base.godot.conversions.attemptAll overridingAttempts).table .extract).get? "Vector2" =
        none ∧
      ((Base.godot.conversions.attemptAll overridingAttempts).table .push).typeNames =
        ["int", "bool", "float", "double", "real_t", "String", "StringName", "Vector2"] ∧
      overridingConfig.conversions = .error (.missingPlaceholder .push "Vector2") := by
  have distinct : ∀ direction, (overridingConfig.given direction).keys.Nodup := by
    intro direction
    cases direction <;> decide
  obtain ⟨htables, -, hconverts⟩ :=
    conversions_lastWrites .godot overridingAttempts overridingConfig distinct
  refine ⟨distinct, ?_, ?_, ?_, (hconverts.error_iff _).2 ?_⟩
  · exact ((htables .extract).get? "int").trans (by decide +kernel)
  · exact ((htables .extract).get? "Vector2").trans (by decide +kernel)
  · exact (htables .push).typeNames.trans (by decide +kernel)
  · exact ⟨⟨"Vector2", .push, "push_vector2(L, ret)"⟩, by decide +kernel, rfl⟩

end Config

end LuaGlue
