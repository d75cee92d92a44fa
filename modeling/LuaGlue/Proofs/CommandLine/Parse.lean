import LuaGlue.Proofs.Build.Scan
import LuaGlue.Proofs.CommandLine
import LuaGlue.Proofs.Json.Codec

/-!
# Printed types

The command that prints types prints nothing but one JSON array: loading the configuration and
scanning the sources are silent. So the whole output is the text of the array with a line feed
behind it, and it is read as the types that the scan collects, in order. The same holds of the JSON
text of every value of the data model.
-/

namespace LuaGlue

theorem Config.silent_load (path : Path) : (load path).Silent := by
  refine (Build.silent_readText path).bind fun text => ?_
  cases hread : read? text (path.parent?.getD ⟨""⟩) with
  | none => exact fun t => rfl
  | some config => exact fun t => rfl

namespace CommandLine

open Json (ReadsBack)

theorem silent_loadConfig (path? : Option Path) : (loadConfig path?).Silent := by
  cases path? with
  | none => exact fun t => rfl
  | some path => exact (Config.silent_load path).mapFailure _

def printed (types : List HostType) : String :=
  (Json.array (types.map HostType.toJson)).pretty ++ "\n"

/-- The line feed behind the array is white space. -/
theorem read?_printed (types : List HostType) :
    (Json.read? (printed types)).bind (Json.list? HostType.ofJson?) = some types := by
  have htextual := Json.textual_array types fun type _ => type.textual_toJson
  have hspace : Json.IsSpace "\n".toList := by simp [Json.IsSpace, Json.isSpace]
  rw [printed, htextual.read?_pretty "\n" hspace, Option.bind_some]
  exact Json.list?_array types fun type _ => type.ofJson?_toJson

theorem printTypes_ends {sources : List Path} {t : FileTree} {c : Catalog}
    (scanned : (HeaderBuild.scan sources).Ends t c t) :
    (printTypes sources).Ends t () t ∧ ((printTypes sources).run t).output = printed c.types := by
  have hscan := scanned.mapFailure (Error.failed none)
  refine ⟨Job.ends_bind_iff.2 ⟨c, t, hscan, rfl, rfl⟩, ?_⟩
  have hsilent := (HeaderBuild.silent_scanInto .empty sources).mapFailure (Error.failed none) t
  have houtput := Job.output_bind_of_ends (f := fun c : Catalog =>
    Job.say .output (printed c.types)) hscan
  rw [HeaderBuild.scan, hsilent, String.empty_append] at houtput
  exact houtput.trans (String.append_empty)

/-- The command line ends well and leaves the tree as it was, and its output is read as the types of
a catalog. -/
structure PrintsTypes (arguments : List String) (t : FileTree) (c : Catalog) : Prop where
  ends : (run arguments).Ends t () t
  output : (Json.read? ((run arguments).run t).output).bind (Json.list? HostType.ofJson?) =
    some c.types

theorem run_printsTypes {arguments : List String} {options : Options} {sources : List Path}
    {t : FileTree} {config : Config} {c : Catalog} (hread : Options.read arguments = .ok options)
    (hcommand : options.command = .parse sources)
    (loads : (loadConfig options.config?).Ends t config t)
    (scanned : (HeaderBuild.scan sources).Ends t c t) : PrintsTypes arguments t c := by
  obtain ⟨hends, houtput⟩ := printTypes_ends scanned
  obtain ⟨config?, strict, command⟩ := options
  dsimp only at hcommand loads
  subst hcommand
  have hrun : run arguments = (loadConfig config?).bind fun _ => printTypes sources := by
    rw [run, hread]
    rfl
  refine ⟨?_, ?_⟩
  · rw [hrun]
    exact Job.ends_bind_iff.2 ⟨config, t, loads, hends⟩
  · rw [hrun, Job.output_bind_of_ends loads, silent_loadConfig, String.empty_append, houtput]
    exact read?_printed c.types

/-- Every value of the data model whose maps have different keys is read back from its JSON text,
and so is what the command prints for sources that hold texts. -/
theorem json_readsBack :
    (∀ m : Member, ReadsBack Member.toJson Member.ofJson? m) ∧
      (∀ type : HostType, ReadsBack HostType.toJson HostType.ofJson? type) ∧
      (∀ c : Catalog, c.entries.keys.Nodup → ReadsBack Catalog.toJson Catalog.ofJson? c) ∧
      (∀ c : Conversion, ReadsBack Conversion.toJson Conversion.ofJson? c) ∧
      (∀ table : ConversionTable, table.entries.keys.Nodup →
        ReadsBack ConversionTable.toJson ConversionTable.ofJson? table) ∧
      (∀ cs : Conversions, cs.extract.entries.keys.Nodup → cs.push.entries.keys.Nodup →
        ReadsBack Conversions.toJson Conversions.ofJson? cs) ∧
      ∀ (arguments : List String) (options : Options) (sources : List Path) (t : FileTree)
        (config : Config), Options.read arguments = .ok options →
        options.command = .parse sources → (loadConfig options.config?).Ends t config t →
        (∀ source ∈ sources, (Build.textAt? t source).isSome) →
        ∃ c, (HeaderBuild.scan sources).Ends t c t ∧ PrintsTypes arguments t c := by
  refine ⟨fun m => m.textual_toJson.readsBack m.ofJson?_toJson,
    fun type => type.textual_toJson.readsBack type.ofJson?_toJson,
    fun c distinct => c.textual_toJson.readsBack (Catalog.ofJson?_toJson distinct),
    fun c => c.textual_toJson.readsBack c.ofJson?_toJson,
    fun table distinct => table.textual_toJson.readsBack (ConversionTable.ofJson?_toJson distinct),
    fun cs hextract hpush =>
      cs.textual_toJson.readsBack (Conversions.ofJson?_toJson hextract hpush), ?_⟩
  intro arguments options sources t config hread hcommand loads readable
  have hscan := HeaderBuild.scan_ends_iff.2 ⟨readable, rfl, rfl⟩
  exact ⟨_, hscan, run_printsTypes hread hcommand loads hscan⟩

/-- A type whose name and path hold a quote, a backslash, control characters and characters beyond
ASCII. -/
def quotedType : HostType :=
  ⟨"F\"o\\o\n\x01", [⟨"kopfdateien/Überö😀.h"⟩], [⟨"int", "get\x7f", ["int\t", ""]⟩]⟩

def quotedCatalog : Catalog := ⟨[("b\"\\", quotedType), ("a\x00", quotedType)]⟩

def quotedTable : ConversionTable :=
  ⟨[("\r", ⟨"String", .push, "push(\"\\\")"⟩), ("", ⟨"😀", .extract, "/"⟩)]⟩

def declaringTree : FileTree where
  workFolder := ["work"]
  entries := [
    (["work"], .folder),
    (["work", "Foo.h"], .file "int get(int)\n".toUTF8),
    (["work", "Bär.h"], .file "void put()\nvoid put()\n".toUTF8),
    (["work", "more"], .folder),
    (["work", "more", "Foo.h"], .file "int set(int)\n".toUTF8)]

def parseWords : List String := ["--strict", "parse", "Foo.h", "Bär.h", "more/Foo.h"]

theorem quoted_readsBack :
    quotedCatalog.entries.keys.Nodup ∧
      ReadsBack Catalog.toJson Catalog.ofJson? quotedCatalog ∧
      quotedTable.entries.keys.Nodup ∧
      ReadsBack ConversionTable.toJson ConversionTable.ofJson? quotedTable ∧
      ReadsBack Conversions.toJson Conversions.ofJson? ⟨quotedTable, quotedTable⟩ ∧
      Options.read parseWords =
        .ok ⟨none, true, .parse [⟨"Foo.h"⟩, ⟨"Bär.h"⟩, ⟨"more/Foo.h"⟩]⟩ ∧
      (loadConfig none).Ends declaringTree .empty declaringTree ∧
      (∀ source ∈ [Path.mk "Foo.h", ⟨"Bär.h"⟩, ⟨"more/Foo.h"⟩],
        (Build.textAt? declaringTree source).isSome) ∧
      ∃ c, (HeaderBuild.scan [⟨"Foo.h"⟩, ⟨"Bär.h"⟩, ⟨"more/Foo.h"⟩]).Ends declaringTree c
        declaringTree ∧ PrintsTypes parseWords declaringTree c := by
  have hcatalog : quotedCatalog.entries.keys.Nodup := by decide
  have htable : quotedTable.entries.keys.Nodup := by decide
  have hread : Options.read parseWords =
      .ok ⟨none, true, .parse [⟨"Foo.h"⟩, ⟨"Bär.h"⟩, ⟨"more/Foo.h"⟩]⟩ := by decide +kernel
  have hloads : (loadConfig none).Ends declaringTree .empty declaringTree := ⟨rfl, rfl⟩
  have hreadable : ∀ source ∈ [Path.mk "Foo.h", ⟨"Bär.h"⟩, ⟨"more/Foo.h"⟩],
      (Build.textAt? declaringTree source).isSome := by decide +kernel
  obtain ⟨-, -, hcatalogs, -, htables, hconversions, hprints⟩ := json_readsBack
  exact ⟨hcatalog, hcatalogs _ hcatalog, htable, htables _ htable, hconversions _ htable htable,
    hread, hloads, hreadable, hprints _ _ _ _ _ hread rfl hloads hreadable⟩

end CommandLine

end LuaGlue
