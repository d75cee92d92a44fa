import LuaGlue.Toml.Reader
import Mathlib.Data.List.Nodup
import Mathlib.Data.Option.Basic

/-!
# The keys of TOML tables

No table of a document has two entries for one key, however headers, dotted keys and braces made it:
an entry is only added where the key is new, and the value of an old key is changed in place.
-/

namespace LuaGlue.Toml

/-- A value in which no table has two entries for one key. -/
inductive Keyed : Toml → Prop
  | string (text : String) : Keyed (.string text)
  | number (digits : String) : Keyed (.number digits)
  | boolean (value : Bool) : Keyed (.boolean value)
  | moment (text : String) : Keyed (.moment text)
  | array {items : List Toml} (each : ∀ item ∈ items, Keyed item) : Keyed (.array items)
  | tableArray {tables : List Entries} (nodup : ∀ entries ∈ tables, entries.keys.Nodup)
      (each : ∀ entries ∈ tables, ∀ entry ∈ entries, Keyed entry.2) : Keyed (.tableArray tables)
  | table {origin : TableOrigin} {entries : Entries} (nodup : entries.keys.Nodup)
      (each : ∀ entry ∈ entries, Keyed entry.2) : Keyed (.table origin entries)

structure KeyedEntries (entries : Entries) : Prop where
  nodup : entries.keys.Nodup
  each : ∀ entry ∈ entries, Keyed entry.2

/-! ## Changes of a table -/

variable {entries entries' : Entries}

theorem KeyedEntries.nil : KeyedEntries [] := ⟨List.nodup_nil, nofun⟩

theorem KeyedEntries.table (h : KeyedEntries entries) (origin : TableOrigin) :
    Keyed (.table origin entries) := .table h.nodup h.each

theorem keyed_table_iff {origin : TableOrigin} :
    Keyed (.table origin entries) ↔ KeyedEntries entries := by
  refine ⟨fun h => ?_, fun h => h.table origin⟩
  cases h with
  | table nodup each => exact ⟨nodup, each⟩

theorem keyed_tableArray_iff {tables : List Entries} :
    Keyed (.tableArray tables) ↔ ∀ entries ∈ tables, KeyedEntries entries := by
  refine ⟨fun h => ?_, fun h => .tableArray (fun entries hentries => (h entries hentries).nodup)
    fun entries hentries => (h entries hentries).each⟩
  cases h with
  | tableArray nodup each =>
    exact fun entries hentries => ⟨nodup entries hentries, each entries hentries⟩

/-- A change of a value, or of none, that makes keyed values of keyed ones. -/
def KeepsKeyed (f : Option Toml → Option Toml) : Prop :=
  ∀ old new, (∀ value ∈ old, Keyed value) → f old = some new → Keyed new

def KeepsEntries (f : Entries → Option Entries) : Prop :=
  ∀ entries entries', KeyedEntries entries → f entries = some entries' → KeyedEntries entries'

theorem mem_keys_alter? {key : String} {f : Option Toml → Option Toml}
    (halter : alter? key f entries = some entries') :
    ∀ other ∈ entries'.keys, other = key ∨ other ∈ entries.keys := by
  induction entries generalizing entries' with
  | nil =>
    obtain ⟨value, -, rfl⟩ := Option.map_eq_some_iff.1 halter
    intro other hother
    exact .inl (List.mem_singleton.1 hother)
  | cons entry rest ih =>
    rw [alter?] at halter
    split_ifs at halter with hhere
    · obtain ⟨value, -, rfl⟩ := Option.map_eq_some_iff.1 halter
      intro other hother
      exact (List.mem_cons.1 hother).imp_right (List.mem_cons_of_mem _)
    · obtain ⟨rest', hrest, rfl⟩ := Option.map_eq_some_iff.1 halter
      intro other hother
      rcases List.mem_cons.1 hother with rfl | hother
      · exact .inr List.mem_cons_self
      · exact (ih hrest other hother).imp_right (List.mem_cons_of_mem _)

theorem KeepsKeyed.alter? {f : Option Toml → Option Toml} (hf : KeepsKeyed f) (key : String) :
    KeepsEntries (alter? key f) := by
  intro entries entries' h halter
  induction entries generalizing entries' with
  | nil =>
    obtain ⟨value, hvalue, rfl⟩ := Option.map_eq_some_iff.1 halter
    refine ⟨List.nodup_singleton _, List.forall_mem_singleton.2 ?_⟩
    exact hf none value nofun hvalue
  | cons entry rest ih =>
    obtain ⟨hkey, hnodup⟩ := List.nodup_cons.1 h.nodup
    obtain ⟨hentry, heach⟩ := List.forall_mem_cons.1 h.each
    rw [Toml.alter?] at halter
    split_ifs at halter with hhere
    · obtain ⟨value, hvalue, rfl⟩ := Option.map_eq_some_iff.1 halter
      refine ⟨List.nodup_cons.2 ⟨hhere ▸ hkey, hnodup⟩, List.forall_mem_cons.2 ⟨?_, heach⟩⟩
      refine hf _ value ?_ hvalue
      rintro _ ⟨⟩
      exact hentry
    · obtain ⟨rest', hrest, rfl⟩ := Option.map_eq_some_iff.1 halter
      obtain ⟨hnodup', heach'⟩ := ih rest' ⟨hnodup, heach⟩ hrest
      refine ⟨List.nodup_cons.2 ⟨fun hmem => ?_, hnodup'⟩, List.forall_mem_cons.2 ⟨hentry, heach'⟩⟩
      exact (mem_keys_alter? hrest _ hmem).elim hhere hkey

theorem KeepsEntries.alterLast? {f : Entries → Option Entries} (hf : KeepsEntries f)
    {tables tables' : List Entries} (h : ∀ entries ∈ tables, KeyedEntries entries)
    (halter : alterLast? f tables = some tables') : ∀ entries ∈ tables', KeyedEntries entries := by
  fun_induction Toml.alterLast? f tables generalizing tables' with
  | case1 => cases halter
  | case2 last =>
    obtain ⟨entries, hentries, rfl⟩ := Option.map_eq_some_iff.1 halter
    exact List.forall_mem_singleton.2 (hf _ _ (h _ List.mem_cons_self) hentries)
  | case3 first rest _ ih =>
    obtain ⟨rest', hrest, rfl⟩ := Option.map_eq_some_iff.1 halter
    obtain ⟨hfirst, hothers⟩ := List.forall_mem_cons.1 h
    exact List.forall_mem_cons.2 ⟨hfirst, ih hothers hrest⟩

theorem KeepsEntries.keyed_table {f : Entries → Option Entries} (hf : KeepsEntries f)
    (h : KeyedEntries entries) {origin : TableOrigin} {new : Toml}
    (hnew : (f entries).map (.table origin) = some new) : Keyed new := by
  obtain ⟨inner, hinner, rfl⟩ := Option.map_eq_some_iff.1 hnew
  exact (hf _ _ h hinner).table origin

theorem KeepsEntries.keyed_tableArray {f : Entries → Option Entries} (hf : KeepsEntries f)
    {tables : List Entries} (h : Keyed (.tableArray tables)) {new : Toml}
    (hnew : (Toml.alterLast? f tables).map .tableArray = some new) : Keyed new := by
  obtain ⟨inner, hinner, rfl⟩ := Option.map_eq_some_iff.1 hnew
  exact keyed_tableArray_iff.2 (hf.alterLast? (keyed_tableArray_iff.1 h) hinner)

theorem keepsEntries_assign? {value : Toml} (hvalue : Keyed value) (path : List String) :
    KeepsEntries (assign? path value) := by
  induction path with
  | nil => nofun
  | cons key path ih =>
    cases path with
    | nil =>
      refine KeepsKeyed.alter? (fun old new _ hnew => ?_) key
      split_ifs at hnew
      cases hnew
      exact hvalue
    | cons next path =>
      refine KeepsKeyed.alter? (fun old new hold hnew => ?_) key
      split at hnew
      · exact ih.keyed_table .nil hnew
      · exact ih.keyed_table (keyed_table_iff.1 (hold _ rfl)) hnew
      · split_ifs at hnew
        exact ih.keyed_table (keyed_table_iff.1 (hold _ rfl)) hnew
      · cases hnew

theorem keepsEntries_descend? {f : String → Entries → Option Entries}
    (hf : ∀ key, KeepsEntries (f key)) (path : List String) : KeepsEntries (descend? f path) := by
  induction path with
  | nil => nofun
  | cons key path ih =>
    cases path with
    | nil => exact hf key
    | cons next path =>
      refine KeepsKeyed.alter? (fun old new hold hnew => ?_) key
      split at hnew
      · exact ih.keyed_table .nil hnew
      · cases hnew
      · exact ih.keyed_table (keyed_table_iff.1 (hold _ rfl)) hnew
      · exact ih.keyed_tableArray (hold _ rfl) hnew
      · cases hnew

theorem keepsEntries_openTable? (path : List String) : KeepsEntries (openTable? path) := by
  refine keepsEntries_descend? (fun key => KeepsKeyed.alter? (fun old new hold hnew => ?_) key) path
  split at hnew
  · cases hnew
    exact KeyedEntries.nil.table .header
  · cases hnew
    exact (keyed_table_iff.1 (hold _ rfl)).table .header
  · cases hnew

theorem keepsEntries_openElement? (path : List String) : KeepsEntries (openElement? path) := by
  refine keepsEntries_descend? (fun key => KeepsKeyed.alter? (fun old new hold hnew => ?_) key) path
  split at hnew
  · cases hnew
    exact keyed_tableArray_iff.2 (List.forall_mem_singleton.2 .nil)
  · next tables =>
    cases hnew
    refine keyed_tableArray_iff.2 (List.forall_mem_append.2 ⟨?_, List.forall_mem_singleton.2 .nil⟩)
    exact keyed_tableArray_iff.1 (hold _ rfl)
  · cases hnew

theorem keepsEntries_assignUnder? {value : Toml} (hvalue : Keyed value)
    (header path : List String) : KeepsEntries (assignUnder? header path value) := by
  have hassign := keepsEntries_assign? hvalue path
  intro entries entries' h hassigned
  unfold assignUnder? at hassigned
  split_ifs at hassigned
  · exact hassign _ _ h hassigned
  · refine keepsEntries_descend? (fun key => KeepsKeyed.alter? (fun old new hold hnew => ?_) key)
      header _ _ h hassigned
    split at hnew
    · exact hassign.keyed_table (keyed_table_iff.1 (hold _ rfl)) hnew
    · exact hassign.keyed_tableArray (hold _ rfl) hnew
    · cases hnew

/-! ## Reading -/

theorem keyed_of_ofChars? {cs : List Char} {value : Toml} (h : Scalar.ofChars? cs = some value) :
    Keyed value := by
  unfold Scalar.ofChars? at h
  split_ifs at h
  · cases h
    exact .boolean true
  · cases h
    exact .boolean false
  · cases h
    exact .number _
  · obtain ⟨text, -, rfl⟩ := Option.map_eq_some_iff.1 h
    exact .moment _

theorem keyed_of_scalar {cs after : List Char} {value : Toml}
    (h : Scalar.read? cs = some (value, after)) : Keyed value := by
  have halone : ∀ first rest, (Scalar.ofChars? first).map (fun value => (value, rest)) =
      some (value, after) → Keyed value := by
    intro first rest hread
    obtain ⟨found, hfound, heq⟩ := Option.map_eq_some_iff.1 hread
    cases heq
    exact keyed_of_ofChars? hfound
  unfold Scalar.read? at h
  dsimp only at h
  split at h
  · split at h
    · cases h
      exact .moment _
    · exact halone _ _ h
  · exact halone _ _ h

namespace Reader

structure FindsKeyed (fuel : Nat) : Prop where
  value : ∀ room cs value after, value? fuel room cs = some (value, after) → Keyed value
  items : ∀ room cs items after, items? fuel room cs = some (items, after) →
    ∀ item ∈ items, Keyed item
  entries : ∀ room before cs entries after, KeyedEntries before →
    entries? fuel room before cs = some (entries, after) → KeyedEntries entries

theorem findsKeyed (fuel : Nat) : FindsKeyed fuel := by
  induction fuel with
  | zero => exact ⟨nofun, nofun, nofun⟩
  | succ fuel ih =>
    refine ⟨fun room cs value after h => ?_, fun room cs items after h => ?_,
      fun room before cs entries after hbefore h => ?_⟩
    · unfold value? at h
      split at h
      · obtain ⟨-, -, h⟩ := Option.bind_eq_some_iff.1 h
        obtain ⟨⟨items, rest⟩, hitems, heq⟩ := Option.bind_eq_some_iff.1 h
        cases heq
        exact .array (ih.items _ _ _ _ hitems)
      · obtain ⟨-, -, h⟩ := Option.bind_eq_some_iff.1 h
        split at h
        · cases h
          exact KeyedEntries.nil.table .inline
        · obtain ⟨⟨entries, rest⟩, hentries, heq⟩ := Option.bind_eq_some_iff.1 h
          cases heq
          exact (ih.entries _ _ _ _ _ .nil hentries).table .inline
      · obtain ⟨⟨text, rest⟩, -, heq⟩ := Option.map_eq_some_iff.1 h
        cases heq
        exact .string _
      · obtain ⟨⟨text, rest⟩, -, heq⟩ := Option.map_eq_some_iff.1 h
        cases heq
        exact .string _
      · exact keyed_of_scalar h
    · unfold items? at h
      split at h
      · cases h
      · cases h
        exact nofun
      · next heq _ =>
        cases heq
        obtain ⟨⟨item, rest⟩, hitem, h⟩ := Option.bind_eq_some_iff.1 h
        dsimp only at h
        have hkeyed := ih.value _ _ _ _ hitem
        split at h
        · cases h
          exact List.forall_mem_singleton.2 hkeyed
        · obtain ⟨⟨items, rest⟩, hitems, heq⟩ := Option.bind_eq_some_iff.1 h
          cases heq
          exact List.forall_mem_cons.2 ⟨hkeyed, ih.items _ _ _ _ hitems⟩
        · cases h
    · unfold entries? at h
      obtain ⟨⟨path, rest⟩, -, h⟩ := Option.bind_eq_some_iff.1 h
      dsimp only at h
      split at h
      · obtain ⟨⟨value, rest⟩, hvalue, h⟩ := Option.bind_eq_some_iff.1 h
        dsimp only at h
        obtain ⟨added, hadded, h⟩ := Option.bind_eq_some_iff.1 h
        have hkeyed := keepsEntries_assign? (ih.value _ _ _ _ hvalue) _ _ _ hbefore hadded
        split at h
        · cases h
          exact hkeyed
        · exact ih.entries _ _ _ _ _ hkeyed h
        · cases h
      · cases h

theorem keepsEntries_lines? (fuel : Nat) (header : List String) (cs : List Char) :
    KeepsEntries fun entries => lines? fuel header entries cs := by
  intro entries entries' h hread
  induction fuel generalizing header cs entries with
  | zero => cases hread
  | succ fuel ih =>
    dsimp only at hread
    unfold lines? at hread
    split at hread
    · cases hread
      exact h
    · obtain ⟨⟨path, rest⟩, -, hread⟩ := Option.bind_eq_some_iff.1 hread
      dsimp only at hread
      split at hread
      · obtain ⟨opened, hopened, hread⟩ := Option.bind_eq_some_iff.1 hread
        obtain ⟨after, -, hread⟩ := Option.bind_eq_some_iff.1 hread
        exact ih _ _ _ (keepsEntries_openElement? _ _ _ h hopened) hread
      · cases hread
    · obtain ⟨⟨path, rest⟩, -, hread⟩ := Option.bind_eq_some_iff.1 hread
      dsimp only at hread
      split at hread
      · obtain ⟨opened, hopened, hread⟩ := Option.bind_eq_some_iff.1 hread
        obtain ⟨after, -, hread⟩ := Option.bind_eq_some_iff.1 hread
        exact ih _ _ _ (keepsEntries_openTable? _ _ _ h hopened) hread
      · cases hread
    · obtain ⟨⟨path, rest⟩, -, hread⟩ := Option.bind_eq_some_iff.1 hread
      dsimp only at hread
      split at hread
      · obtain ⟨⟨value, rest⟩, hvalue, hread⟩ := Option.bind_eq_some_iff.1 hread
        dsimp only at hread
        obtain ⟨added, hadded, hread⟩ := Option.bind_eq_some_iff.1 hread
        obtain ⟨after, -, hread⟩ := Option.bind_eq_some_iff.1 hread
        have hkeyed := (findsKeyed _).value _ _ _ _ hvalue
        exact ih _ _ _ (keepsEntries_assignUnder? hkeyed _ _ _ _ h hadded) hread
      · cases hread

theorem keyedEntries_of_document? {text : String} {entries : Entries}
    (h : document? text = some entries) : KeyedEntries entries :=
  keepsEntries_lines? _ _ _ _ _ .nil h

end Reader

end LuaGlue.Toml
