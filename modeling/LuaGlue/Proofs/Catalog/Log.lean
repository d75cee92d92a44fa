import LuaGlue.Catalog
import LuaGlue.Proofs.OrderedMap

/-!
# Catalogs and what was put into them

A catalog is filled by mentioning names, adding sources and inserting types, in any order. It is
described by the log of these operations: the names in the order in which they were first mentioned,
and for each name what the operations on that name contributed, one after the other.
-/

namespace LuaGlue

namespace Catalog

inductive Operation where
  | mention (name : String) (member : Option Member)
  | addSource (name : String) (source : Path) (members : List Member)
  | insert (type : HostType)
  deriving DecidableEq, Repr

namespace Operation

def name : Operation → String
  | .mention name _ => name
  | .addSource name _ _ => name
  | .insert type => type.name

def sources : Operation → List Path
  | .mention _ _ => []
  | .addSource _ source _ => [source]
  | .insert type => type.sources

def members : Operation → List Member
  | .mention _ member => member.toList
  | .addSource _ _ members => members
  | .insert type => type.members

def apply (c : Catalog) : Operation → Catalog
  | .mention name member => c.mention name member
  | .addSource name source members => c.addSource name source members
  | .insert type => c.insert type

theorem apply_eq_extend (c : Catalog) (op : Operation) :
    op.apply c = c.extend op.name op.sources op.members := by
  cases op <;> rfl

end Operation

def ofLog (log : List Operation) : Catalog := log.foldl Operation.apply empty

def mentioned (log : List Operation) : List String := (log.map Operation.name).eraseDups

def sourcesOf (log : List Operation) (name : String) : List Path :=
  (log.filter fun op => op.name = name).flatMap Operation.sources

def membersOf (log : List Operation) (name : String) : List Member :=
  (log.filter fun op => op.name = name).flatMap Operation.members

def collected (log : List Operation) (name : String) : HostType :=
  ⟨name, sourcesOf log name, membersOf log name⟩

theorem mentioned_concat (log : List Operation) (op : Operation) :
    mentioned (log ++ [op]) =
      if op.name ∈ mentioned log then mentioned log else mentioned log ++ [op.name] := by
  unfold mentioned
  rw [List.map_append, List.map_singleton, eraseDups_concat]

theorem nodup_mentioned (log : List Operation) : (mentioned log).Nodup :=
  nodup_eraseDups _

theorem mem_mentioned_iff {log : List Operation} {name : String} :
    name ∈ mentioned log ↔ ∃ op ∈ log, op.name = name := by
  unfold mentioned
  rw [List.mem_eraseDups, List.mem_map]

theorem collected_of_not_mem {log : List Operation} {name : String} (h : name ∉ mentioned log) :
    collected log name = .named name := by
  have hfilter : (log.filter fun op => op.name = name) = [] := by
    apply List.filter_eq_nil_iff.2
    intro op hop
    simp only [decide_eq_true_eq]
    exact fun hname => h (mem_mentioned_iff.2 ⟨op, hop, hname⟩)
  unfold collected sourcesOf membersOf
  rw [hfilter]
  rfl

theorem collected_concat (log : List Operation) (op : Operation) (name : String) :
    collected (log ++ [op]) name =
      if name = op.name then (collected log name).extend op.sources op.members
      else collected log name := by
  unfold collected sourcesOf membersOf HostType.extend
  rw [List.filter_append, List.flatMap_append, List.flatMap_append]
  by_cases h : op.name = name
  · rw [if_pos h.symm]
    simp [h]
  · rw [if_neg (Ne.symm h)]
    simp [h]

/-- A catalog holds, in order of first mention, what its log collects under each name. -/
theorem entries_ofLog (log : List Operation) :
    (ofLog log).entries = (mentioned log).map fun name => (name, collected log name) := by
  induction log using List.reverseRecOn with
  | nil => rfl
  | append_singleton log op ih =>
    have hstep : ofLog (log ++ [op]) = op.apply (ofLog log) := by
      unfold ofLog
      rw [List.foldl_concat]
    rw [hstep, Operation.apply_eq_extend, extend, ih, mentioned_concat]
    by_cases h : op.name ∈ mentioned log
    · rw [if_pos h, OrderedMap.alter_map_of_mem (nodup_mentioned log) _ _ h]
      apply List.map_congr_left
      intro name hname
      rw [collected_concat]
      split_ifs with hop
      · rw [hop]
        rfl
      · rfl
    · rw [if_neg h, OrderedMap.alter_map_of_not_mem _ _ h, List.map_append, List.map_singleton]
      rw [collected_concat, if_pos rfl, collected_of_not_mem h]
      have hkept : (mentioned log).map (fun name => (name, collected (log ++ [op]) name)) =
          (mentioned log).map fun name => (name, collected log name) := by
        apply List.map_congr_left
        intro name hname
        rw [collected_concat, if_neg]
        rintro rfl
        exact h hname
      rw [hkept]
      rfl

theorem types_ofLog (log : List Operation) :
    (ofLog log).types = (mentioned log).map (collected log) := by
  unfold types
  rw [entries_ofLog, List.map_map]
  rfl

theorem keys_ofLog (log : List Operation) : (ofLog log).entries.keys = mentioned log := by
  unfold OrderedMap.keys
  rw [entries_ofLog, List.map_map]
  exact List.map_id _

theorem get?_ofLog_of_mem {log : List Operation} {name : String} (h : name ∈ mentioned log) :
    (ofLog log).get? name = some (collected log name) := by
  unfold get?
  rw [entries_ofLog, OrderedMap.get?_map_of_mem (collected log) h]

theorem mentioned_eq_nil_iff {log : List Operation} : mentioned log = [] ↔ log = [] := by
  constructor
  · intro h
    cases log with
    | nil => rfl
    | cons op rest =>
      have hop : op.name ∈ mentioned (op :: rest) := mem_mentioned_iff.2 ⟨op, by simp, rfl⟩
      rw [h] at hop
      cases hop
  · rintro rfl
    rfl

/-- A catalog groups the operations of a log by the names that they mention. -/
structure Groups (c : Catalog) (log : List Operation) : Prop where
  /-- The names come in the order of their first mention. -/
  names : c.entries.keys = mentioned log
  names_nodup : c.entries.keys.Nodup
  own_name : ∀ entry ∈ c.entries, entry.2.name = entry.1
  missing_iff : ∀ name, c.get? name = none ↔ ∀ op ∈ log, op.name ≠ name
  /-- A type holds, in order, what the operations on its name contributed, and nothing else. -/
  found : ∀ name ∈ mentioned log,
    c.get? name = some ⟨name, sourcesOf log name, membersOf log name⟩
  size : c.size = (mentioned log).length
  isEmpty_iff : c.isEmpty = true ↔ log = []

/-- Whatever operations filled a catalog, in whatever order, it groups them by name. -/
theorem ofLog_groups (log : List Operation) : (ofLog log).Groups log := by
  have hkeys := keys_ofLog log
  refine ⟨hkeys, hkeys ▸ nodup_mentioned log, ?_, ?_, fun name => get?_ofLog_of_mem, ?_, ?_⟩
  · intro entry hentry
    rw [entries_ofLog] at hentry
    obtain ⟨name, -, rfl⟩ := List.mem_map.1 hentry
    rfl
  · intro name
    unfold get?
    rw [OrderedMap.get?_eq_none_iff, hkeys, mem_mentioned_iff]
    push Not
    rfl
  · unfold size
    rw [entries_ofLog, List.length_map]
  · unfold isEmpty
    rw [entries_ofLog, List.isEmpty_iff, List.map_eq_nil_iff, mentioned_eq_nil_iff]

/-- A name that is mentioned again keeps its place, and its type gets the new members. -/
example : (ofLog [.addSource "Zeta" ⟨"Zeta.h"⟩ [], .mention "Alpha" none,
    .insert ⟨"Zeta", [⟨"extra/Zeta.h"⟩], [⟨"void", "reset", []⟩]⟩]).types =
      [⟨"Zeta", [⟨"Zeta.h"⟩, ⟨"extra/Zeta.h"⟩], [⟨"void", "reset", []⟩]⟩,
        ⟨"Alpha", [], []⟩] := by
  decide

end Catalog

end LuaGlue
