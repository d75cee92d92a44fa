import LuaGlue.Failure
import LuaGlue.Proofs.OrderedMap
import LuaGlue.Proofs.Text.Placeholder

/-!
# Filling the tables of conversions

A table into which conversions are inserted finds the last one of a type, and its names keep the
order in which they first came. An attempt to add a conversion fails exactly if the template lacks
its placeholder, and then changes nothing; so after any attempts each table holds what the attempts
in its direction that succeeded put into it.
-/

namespace LuaGlue

def Conversion.HoldsPlaceholder (c : Conversion) : Prop :=
  StandsIn c.direction.placeholder c.template

instance (c : Conversion) : Decidable c.HoldsPlaceholder :=
  inferInstanceAs (Decidable (StandsIn _ _))

namespace ConversionTable

def insertAll (t : ConversionTable) (added : List Conversion) : ConversionTable :=
  added.foldl insert t

theorem insertAll_concat (t : ConversionTable) (added : List Conversion) (c : Conversion) :
    t.insertAll (added ++ [c]) = (t.insertAll added).insert c :=
  List.foldl_concat insert t c added

theorem get?_insert (t : ConversionTable) (c : Conversion) (typeName : String) :
    (t.insert c).get? typeName = if typeName = c.typeName then some c else t.get? typeName :=
  OrderedMap.get?_put c.typeName typeName c t.entries

theorem typeNames_insert (t : ConversionTable) (c : Conversion) :
    (t.insert c).typeNames =
      if c.typeName ∈ t.typeNames then t.typeNames else t.typeNames ++ [c.typeName] :=
  OrderedMap.keys_put t.entries c.typeName c

def lastFor? (added : List Conversion) (typeName : String) : Option Conversion :=
  (added.filter fun c => c.typeName = typeName).getLast?

theorem lastFor?_concat (added : List Conversion) (c : Conversion) (typeName : String) :
    lastFor? (added ++ [c]) typeName =
      if c.typeName = typeName then some c else lastFor? added typeName := by
  unfold lastFor?
  rw [List.filter_append]
  split_ifs with h
  · rw [List.filter_cons_of_pos (by simpa using h), List.filter_nil, List.getLast?_concat]
  · rw [List.filter_cons_of_neg (by simpa using h), List.filter_nil, List.append_nil]

theorem lastFor?_cons (c : Conversion) (added : List Conversion) (typeName : String) :
    lastFor? (c :: added) typeName =
      (lastFor? added typeName).or (if c.typeName = typeName then some c else none) := by
  unfold lastFor?
  split_ifs with h
  · rw [List.filter_cons_of_pos (by simpa using h), List.getLast?_cons]
    cases (added.filter fun c => c.typeName = typeName).getLast? <;> rfl
  · rw [List.filter_cons_of_neg (by simpa using h), Option.or_none]

theorem get?_insertAll (t : ConversionTable) (added : List Conversion) (typeName : String) :
    (t.insertAll added).get? typeName = (lastFor? added typeName).or (t.get? typeName) := by
  induction added using List.reverseRecOn with
  | nil => rfl
  | append_singleton added c ih =>
    rw [insertAll_concat, get?_insert, lastFor?_concat, ih]
    by_cases h : typeName = c.typeName
    · rw [if_pos h, if_pos h.symm, Option.some_or]
    · rw [if_neg h, if_neg (Ne.symm h)]

/-- The names of conversions that a table lacks, in the order in which they first come. -/
def newNames (t : ConversionTable) (added : List Conversion) : List String :=
  ((added.map Conversion.typeName).filter fun name => name ∉ t.typeNames).eraseDups

theorem newNames_concat (t : ConversionTable) (added : List Conversion) (c : Conversion) :
    t.newNames (added ++ [c]) =
      if c.typeName ∈ t.typeNames ++ t.newNames added then t.newNames added
      else t.newNames added ++ [c.typeName] := by
  unfold newNames
  rw [List.map_append, List.map_singleton, List.filter_append]
  by_cases hold : c.typeName ∈ t.typeNames
  · rw [List.filter_cons_of_neg (by simpa using hold), List.filter_nil, List.append_nil,
      if_pos (List.mem_append_left _ hold)]
  · rw [List.filter_cons_of_pos (by simpa using hold), List.filter_nil, eraseDups_concat]
    simp only [List.mem_append, hold, false_or]

theorem typeNames_insertAll (t : ConversionTable) (added : List Conversion) :
    (t.insertAll added).typeNames = t.typeNames ++ t.newNames added := by
  induction added using List.reverseRecOn with
  | nil => exact (List.append_nil _).symm
  | append_singleton added c ih =>
    rw [insertAll_concat, typeNames_insert, newNames_concat, ih]
    split_ifs
    · rfl
    · rw [List.append_assoc]

/-- The conversions of a direction, each under the name of its type and with a template that holds
the placeholder; no name occurs twice. -/
structure WellFormed (direction : Direction) (t : ConversionTable) : Prop where
  nodup : t.typeNames.Nodup
  own_name : ∀ entry ∈ t.entries, entry.2.typeName = entry.1
  own_direction : ∀ entry ∈ t.entries, entry.2.direction = direction
  holdsPlaceholder : ∀ entry ∈ t.entries, entry.2.HoldsPlaceholder

namespace WellFormed

variable {direction : Direction} {t : ConversionTable}

theorem insert (h : t.WellFormed direction) {c : Conversion} (hdirection : c.direction = direction)
    (hholds : c.HoldsPlaceholder) : (t.insert c).WellFormed direction := by
  refine ⟨OrderedMap.nodup_keys_put h.nodup c.typeName c, ?_, ?_, ?_⟩
  all_goals
    intro entry hentry
    obtain rfl | hold := OrderedMap.mem_put hentry
  · rfl
  · exact h.own_name entry hold
  · exact hdirection
  · exact h.own_direction entry hold
  · exact hholds
  · exact h.holdsPlaceholder entry hold

theorem insertAll (h : t.WellFormed direction) {added : List Conversion}
    (hadded : ∀ c ∈ added, c.direction = direction ∧ c.HoldsPlaceholder) :
    (t.insertAll added).WellFormed direction := by
  induction added using List.reverseRecOn with
  | nil => exact h
  | append_singleton added c ih =>
    obtain ⟨hdirection, hholds⟩ := hadded c (by simp)
    rw [insertAll_concat]
    exact (ih fun d hd => hadded d (List.mem_append_left _ hd)).insert hdirection hholds

end WellFormed

theorem wellFormed_empty (direction : Direction) : empty.WellFormed direction :=
  ⟨List.nodup_nil, nofun, nofun, nofun⟩

theorem wellFormed_ofList {direction : Direction} {templates : List (String × String)}
    (h : ∀ entry ∈ templates, StandsIn direction.placeholder entry.2) :
    (ofList direction templates).WellFormed direction := by
  have hfilled : ofList direction templates =
      empty.insertAll (templates.map fun entry => ⟨entry.1, direction, entry.2⟩) := by
    rw [ofList, insertAll, List.foldl_map]
  rw [hfilled]
  apply (wellFormed_empty direction).insertAll
  rw [List.forall_mem_map]
  exact fun entry hentry => ⟨rfl, h entry hentry⟩

end ConversionTable

namespace Conversions

open ConversionTable (lastFor?)

/-- Conversions from which one can start. -/
inductive Base where
  | empty
  | godot
  deriving DecidableEq, Repr

def Base.conversions : Base → Conversions
  | .empty => .empty
  | .godot => .godot

theorem wellFormed_base (base : Base) (direction : Direction) :
    (base.conversions.table direction).WellFormed direction := by
  cases base with
  | empty => cases direction <;> exact ConversionTable.wellFormed_empty _
  | godot => cases direction <;> exact ConversionTable.wellFormed_ofList (by decide +kernel)

def insert (cs : Conversions) (c : Conversion) : Conversions :=
  match c.direction with
  | .extract => { cs with extract := cs.extract.insert c }
  | .push => { cs with push := cs.push.insert c }

theorem table_insert (cs : Conversions) (c : Conversion) (direction : Direction) :
    (cs.insert c).table direction =
      if c.direction = direction then (cs.table direction).insert c else cs.table direction := by
  obtain ⟨typeName, own, template⟩ := c
  cases own <;> cases direction <;> rfl

theorem add_eq (cs : Conversions) (c : Conversion) :
    cs.add c.direction c.typeName c.template =
      if c.HoldsPlaceholder then .ok (cs.insert c)
      else .error (.missingPlaceholder c.direction c.typeName) := by
  unfold add add? Conversion.make?
  by_cases hholds : c.HoldsPlaceholder
  · rw [if_pos (Text.holds_iff.2 hholds), if_pos hholds]
    obtain ⟨typeName, direction, template⟩ := c
    cases direction <;> rfl
  · rw [if_neg (mt Text.holds_iff.1 hholds), if_neg hholds]
    rfl

/-- The conversions after an attempt to add one, which may fail. -/
def attempt (cs : Conversions) (wanted : Conversion) : Conversions :=
  match cs.add wanted.direction wanted.typeName wanted.template with
  | .ok added => added
  | .error _ => cs

def attemptAll (cs : Conversions) (wanted : List Conversion) : Conversions :=
  wanted.foldl attempt cs

theorem attempt_eq (cs : Conversions) (c : Conversion) :
    cs.attempt c = if c.HoldsPlaceholder then cs.insert c else cs := by
  unfold attempt
  rw [add_eq]
  split_ifs <;> rfl

def succeeding (wanted : List Conversion) (direction : Direction) : List Conversion :=
  wanted.filter fun c => c.direction = direction ∧ c.HoldsPlaceholder

theorem table_attemptAll (cs : Conversions) (wanted : List Conversion) (direction : Direction) :
    (cs.attemptAll wanted).table direction =
      (cs.table direction).insertAll (succeeding wanted direction) := by
  unfold attemptAll succeeding
  -- from the back, since the last attempt is the one that decides
  induction wanted using List.reverseRecOn with
  | nil => rfl
  | append_singleton wanted c ih =>
    rw [List.foldl_concat, attempt_eq, List.filter_append]
    by_cases hholds : c.HoldsPlaceholder
    · rw [if_pos hholds, table_insert, ih]
      by_cases hdirection : c.direction = direction
      · rw [if_pos hdirection, List.filter_cons_of_pos (by simp [hdirection, hholds]),
          List.filter_nil, ConversionTable.insertAll_concat]
      · rw [if_neg hdirection, List.filter_cons_of_neg (by simp [hdirection]), List.filter_nil,
          List.append_nil]
    · rw [if_neg hholds, ih, List.filter_cons_of_neg (by simp [hholds]), List.filter_nil,
        List.append_nil]

structure HoldsLastWrites (base : Conversions) (wanted : List Conversion) (direction : Direction)
    (t : ConversionTable) : Prop where
  /-- The last attempt that succeeded for the type is found, else what the base holds. -/
  get? : ∀ typeName, t.get? typeName =
    (lastFor? (succeeding wanted direction) typeName).or ((base.table direction).get? typeName)
  /-- The names of the base keep their places; the new ones follow in the order in which an attempt
  for them first succeeded. -/
  typeNames : t.typeNames = (base.table direction).typeNames ++
    (base.table direction).newNames (succeeding wanted direction)
  wellFormed : t.WellFormed direction
  /-- The attempts in the other direction do not matter. -/
  independent : ∀ wanted' : List Conversion,
    wanted'.filter (fun c => c.direction = direction) =
      wanted.filter (fun c => c.direction = direction) →
    (base.attemptAll wanted').table direction = t

theorem holdsLastWrites (base : Base) (wanted : List Conversion) (direction : Direction) :
    HoldsLastWrites base.conversions wanted direction
      ((base.conversions.attemptAll wanted).table direction) := by
  have htable := table_attemptAll base.conversions wanted direction
  refine ⟨fun typeName => ?_, ?_, ?_, fun wanted' hsame => ?_⟩
  · rw [htable, ConversionTable.get?_insertAll]
  · rw [htable, ConversionTable.typeNames_insertAll]
  · rw [htable]
    apply (wellFormed_base base direction).insertAll
    intro c hc
    simpa using (List.mem_filter.1 hc).2
  · have hsplit : ∀ wanted : List Conversion, succeeding wanted direction =
        (wanted.filter fun c => c.direction = direction).filter fun c => c.HoldsPlaceholder := by
      intro wanted
      simp only [succeeding, List.filter_filter, Bool.decide_and, Bool.and_comm]
    rw [htable, table_attemptAll, hsplit, hsplit, hsame]

end Conversions

end LuaGlue
