import LuaGlue.Proofs.Build.Generation
import LuaGlue.Proofs.Declaration.Joined
import LuaGlue.Proofs.Path

/-!
# Declarations laid out anew

A header is made from the names of the types, in the order in which they first occur, and from the
joined texts of the files of each. How the declarations of a type are cut into files, where these
files lie, and what stands between them does not show in the header.
-/

namespace LuaGlue

/-- What a scan sees of a source: the name of the type that it declares, and its text. -/
structure DeclarationFile where
  typeName : String
  text : String
  deriving DecidableEq, Repr

namespace DeclarationFile

open Declaration (readAll readAll_intercalate readAll_cut LineBreak)

def names (files : List DeclarationFile) : List String := (files.map (·.typeName)).eraseDups

def joined (files : List DeclarationFile) (name : String) : String :=
  "\n".intercalate ((files.filter fun file => file.typeName = name).map (·.text))

structure SameTexts (files files' : List DeclarationFile) : Prop where
  names : names files' = names files
  joined : ∀ name ∈ DeclarationFile.names files, joined files' name = joined files name

structure SameMembers (files files' : List DeclarationFile) : Prop where
  names : names files' = names files
  members : ∀ name ∈ DeclarationFile.names files,
    readAll (DeclarationFile.joined files' name) = readAll (DeclarationFile.joined files name)

theorem SameTexts.sameMembers {files files' : List DeclarationFile} (h : SameTexts files files') :
    SameMembers files files' :=
  ⟨h.names, fun name hname => by rw [h.joined name hname]⟩

/-- One file is cut in two at a line break. The second part stands somewhere behind the first one,
before the next file of its type. -/
inductive Cut : List DeclarationFile → List DeclarationFile → Prop
  | atBreak (before between after : List DeclarationFile) (name text rest : String)
      (lineBreak : LineBreak) (apart : ∀ file ∈ between, file.typeName ≠ name) :
      Cut (before ++ ⟨name, text ++ lineBreak.text ++ rest⟩ :: (between ++ after))
        (before ++ ⟨name, text⟩ :: (between ++ ⟨name, rest⟩ :: after))

theorem eraseDups_append_cons_of_mem {xs : List String} {x : String} (h : x ∈ xs)
    (ys : List String) : (xs ++ x :: ys).eraseDups = (xs ++ ys).eraseDups := by
  have hcontains : ¬xs.contains x = false := by simpa using h
  rw [List.eraseDups_append, List.eraseDups_append, List.cons_removeAll, if_neg hcontains]

theorem readAll_joined (files : List DeclarationFile) (name : String) :
    readAll (joined files name) =
      (files.filter fun file => file.typeName = name).flatMap fun file => readAll file.text := by
  unfold joined
  rw [readAll_intercalate, List.flatMap_map]

/-- A cut changes neither the names nor what the joined texts declare. -/
theorem Cut.sameMembers {files files' : List DeclarationFile} (h : Cut files files') :
    SameMembers files files' := by
  obtain ⟨before, between, after, name, text, rest, lineBreak, apart⟩ := h
  refine ⟨?_, fun other _ => ?_⟩
  · have hmem : name ∈ before.map (·.typeName) ++ name :: between.map (·.typeName) := by simp
    have hnames := eraseDups_append_cons_of_mem hmem (after.map (·.typeName))
    simpa [names] using hnames
  · rw [readAll_joined, readAll_joined]
    by_cases hother : name = other
    · have hbetween : between.filter (fun file => file.typeName = other) = [] := by
        apply List.filter_eq_nil_iff.2
        intro file hfile
        simpa [hother] using apart file hfile
      simp [hother, hbetween, readAll_cut]
    · simp [hother]

end DeclarationFile

namespace HeaderBuild

open DeclarationFile
open Declaration (readAll)

def filesOf (t : FileTree) (sources : List Path) : List DeclarationFile :=
  sources.map fun source => ⟨typeName source, (Build.textAt? t source).getD ""⟩

/-- The header of declaration files: for each type the wrappers of what its joined texts declare. -/
def headerOf (cs : Conversions) (style : HeaderStyle) (files : List DeclarationFile) : Header :=
  ⟨style, (names files).map fun name =>
    ⟨name, Wrapper.allOf cs name (readAll (joined files name))⟩⟩

theorem names_filesOf (t : FileTree) (sources : List Path) :
    names (filesOf t sources) = (sources.map typeName).eraseDups := by
  unfold names filesOf
  rw [List.map_map]
  rfl

theorem readAll_joined_filesOf (t : FileTree) (sources : List Path) (name : String) :
    readAll (joined (filesOf t sources) name) =
      (sourcesFor sources name).flatMap (declaredIn t) := by
  rw [readAll_joined, filesOf, List.filter_map, List.flatMap_map]
  simp only [Function.comp_def]
  rfl

theorem ofCatalog_of_scan {t : FileTree} {sources : List Path} {c : Catalog}
    (h : ((scan sources).run t).result = .ok c) (cs : Conversions) (style : HeaderStyle) :
    Header.ofCatalog cs style c = headerOf cs style (filesOf t sources) := by
  unfold Header.ofCatalog headerOf
  rw [types_of_scan h, declaredTypes, names_filesOf, List.map_map]
  apply congrArg (Header.mk style)
  apply List.map_congr_left
  intro name _
  rw [Function.comp_apply, Section.ofType, readAll_joined_filesOf]

theorem headerOf_congr {files files' : List DeclarationFile} (h : SameMembers files files')
    (cs : Conversions) (style : HeaderStyle) :
    headerOf cs style files' = headerOf cs style files := by
  unfold headerOf
  rw [h.names]
  apply congrArg (Header.mk style)
  apply List.map_congr_left
  intro name hname
  rw [h.members name hname]

/-- What generating ends with when it makes a header: the header with a marker for its text, or the
failure of its first gap if the build is strict. -/
def outcome (b : HeaderBuild) (header : Header) : Except Failure Product :=
  match b.strict, header.gaps with
  | true, gap :: _ => .error gap.failure
  | _, _ => .ok ⟨header, ⟨b.fingerprint header.text, b.sources⟩, false⟩

structure Makes (b : HeaderBuild) (t : FileTree) (header : Header) : Prop where
  emitted : ∃ c, ((scan b.sources).run t).result = .ok c ∧
    (Header.emit b.conversions b.style c : Job Failure Header).Ends t header t
  result : (b.generate.run t).result = b.outcome header

theorem verdict_eq_outcome (b : HeaderBuild) (c : Catalog) :
    b.verdict c = b.outcome (Header.ofCatalog b.conversions b.style c) := by
  have hheader : (b.productFor c).header = Header.ofCatalog b.conversions b.style c := rfl
  unfold verdict outcome obstacle?
  cases b.strict with
  | false => rfl
  | true =>
    rw [if_pos rfl, hheader]
    cases (Header.ofCatalog b.conversions b.style c).gaps with
    | nil => rfl
    | cons gap rest => rfl

theorem makes_headerOf {b : HeaderBuild} {t : FileTree}
    (scanned : ((scan b.sources).run t).result.isOk = true) :
    b.Makes t (headerOf b.conversions b.style (filesOf t b.sources)) := by
  cases hscan : ((scan b.sources).run t).result with
  | error failure =>
    rw [hscan] at scanned
    cases scanned
  | ok c =>
    have hheader := ofCatalog_of_scan hscan b.conversions b.style
    refine ⟨⟨c, hscan, ?_⟩, ?_⟩
    · rw [Job.Ends, Header.run_emit, hheader]
      exact ⟨rfl, rfl⟩
    · rw [generate_result, hscan, ← hheader, ← verdict_eq_outcome]
      rfl

/-- A file name in two parts: the name of a type, and what follows from the first dot on. -/
structure SourceName where
  stem : String
  ending : String
  stem_nonempty : stem ≠ ""
  stem_plain : ∀ c ∈ stem.toList, c ≠ '.' ∧ c ≠ '/'
  ending_dotted : ending = "" ∨ ending.toList.head? = some '.'
  ending_flat : '/' ∉ ending.toList

namespace SourceName

def text (n : SourceName) : String := n.stem ++ n.ending

theorem isFileName (n : SourceName) : Path.IsFileName n.text := by
  obtain ⟨c, rest, hstem⟩ : ∃ c rest, n.stem.toList = c :: rest := by
    apply List.exists_cons_of_ne_nil
    exact fun hnil => n.stem_nonempty (String.toList_inj.1 hnil)
  have hdot : c ≠ '.' := (n.stem_plain c (by simp [hstem])).1
  have hchars : n.text.toList = c :: (rest ++ n.ending.toList) := by
    rw [text, String.toList_append, hstem, List.cons_append]
  have hne : ∀ other : String, other.toList.head? ≠ some c → n.text ≠ other := by
    rintro other hhead rfl
    rw [hchars] at hhead
    exact hhead rfl
  refine ⟨hne "" nofun, ?_, hne "." (by simpa using hdot.symm), hne ".." (by simpa using hdot.symm)⟩
  rw [text, String.toList_append, List.mem_append, not_or]
  exact ⟨fun hslash => (n.stem_plain '/' hslash).2 rfl, n.ending_flat⟩

theorem takeWhile_text (n : SourceName) :
    n.text.toList.takeWhile (· != '.') = n.stem.toList := by
  have hstem : ∀ c ∈ n.stem.toList, (c != '.') = true := by
    intro c hc
    simpa using (n.stem_plain c hc).1
  have hending : n.ending.toList.takeWhile (· != '.') = [] := by
    rcases n.ending_dotted with hempty | hdot
    · rw [hempty]
      rfl
    · obtain ⟨rest, hrest⟩ := List.head?_eq_some_iff.1 hdot
      rw [hrest]
      rfl
  rw [text, String.toList_append, List.takeWhile_append_of_pos hstem, hending, List.append_nil]

theorem typeName_join (n : SourceName) (folder : Path) :
    typeName (folder.join ⟨n.text⟩) = n.stem := by
  rw [typeName, Path.fileName_join folder n.isFileName, Declaration.typeName, takeWhile_text,
    String.ofList_toList]

end SourceName

/-- A file is moved to another folder, where what follows the first dot of its name may be another
ending. -/
inductive Moved (t t' : FileTree) : Path → Path → Prop
  | to (folder folder' : Path) (n n' : SourceName) (stem : n'.stem = n.stem)
      (text : Build.textAt? t' (folder'.join ⟨n'.text⟩) = Build.textAt? t (folder.join ⟨n.text⟩)) :
      Moved t t' (folder.join ⟨n.text⟩) (folder'.join ⟨n'.text⟩)

theorem filesOf_eq_of_moved {t t' : FileTree} {sources sources' : List Path}
    (h : List.Forall₂ (Moved t t') sources sources') : filesOf t' sources' = filesOf t sources := by
  induction h with
  | nil => rfl
  | cons hmoved _ ih =>
    obtain ⟨folder, folder', n, n', hstem, htext⟩ := hmoved
    unfold filesOf at ih ⊢
    rw [List.map_cons, List.map_cons, ih, n.typeName_join, n'.typeName_join, hstem, htext]

/-- The declarations are the same in both trees, laid out in other files. -/
inductive Relaid (t t' : FileTree) (sources sources' : List Path) : Prop
  | joined (files : SameTexts (filesOf t sources) (filesOf t' sources'))
  | moved (files : List.Forall₂ (Moved t t') sources sources')
  | cut (files : Cut (filesOf t sources) (filesOf t' sources'))

theorem Relaid.sameMembers {t t' : FileTree} {sources sources' : List Path}
    (h : Relaid t t' sources sources') :
    SameMembers (filesOf t sources) (filesOf t' sources') := by
  cases h with
  | joined files => exact files.sameMembers
  | moved files =>
    rw [filesOf_eq_of_moved files]
    exact ⟨rfl, fun _ _ => rfl⟩
  | cut files => exact files.sameMembers

/-- Two builds make the same header, whatever trees they run on, if the joined texts of each type
are the same for both, and also if files are moved or one is cut in two. -/
theorem makes_sameHeader (b b' : HeaderBuild) (t t' : FileTree)
    (conversions : b'.conversions = b.conversions) (style : b'.style = b.style)
    (fingerprint : b'.fingerprint = b.fingerprint)
    (scanned : ((scan b.sources).run t).result.isOk = true)
    (scanned' : ((scan b'.sources).run t').result.isOk = true)
    (relaid : Relaid t t' b.sources b'.sources) :
    ∃ header, b.Makes t header ∧ b'.Makes t' header ∧
      b'.fingerprint header.text = b.fingerprint header.text := by
  have hmakes := makes_headerOf scanned'
  rw [conversions, style, headerOf_congr relaid.sameMembers] at hmakes
  exact ⟨_, makes_headerOf scanned, hmakes, by rw [fingerprint]⟩

def wholeTree : FileTree where
  workFolder := ["work"]
  entries := [
    (["work"], .folder),
    (["work", "wrapper"], .folder),
    (["work", "wrapper", "Foo.h"], .file "int get(int)\r\nvoid set(Vector2)\n".toUTF8),
    (["work", "Bar.h"], .file "bool ok()\n".toUTF8)]

def partedTree : FileTree where
  workFolder := ["work"]
  entries := [
    (["work"], .folder),
    (["work", "Foo.h"], .file "int get(int)".toUTF8),
    (["work", "Bar.gen.h"], .file "bool ok()\n".toUTF8),
    (["work", "more"], .folder),
    (["work", "more", "Foo.part.h"], .file "void set(Vector2)\n".toUTF8)]

def wholeBuild : HeaderBuild :=
  { standard with sources := [⟨"wrapper/Foo.h"⟩, ⟨"Bar.h"⟩] }

def partedBuild : HeaderBuild :=
  { standard with sources := [⟨"Foo.h"⟩, ⟨"Bar.gen.h"⟩, ⟨"more//Foo.part.h"⟩], strict := true }

theorem wholeBuild_partedBuild_sameHeader :
    ((scan wholeBuild.sources).run wholeTree).result.isOk = true ∧
      ((scan partedBuild.sources).run partedTree).result.isOk = true ∧
      Relaid wholeTree partedTree wholeBuild.sources partedBuild.sources ∧
      ∃ header, wholeBuild.Makes wholeTree header ∧ partedBuild.Makes partedTree header ∧
        partedBuild.fingerprint header.text = wholeBuild.fingerprint header.text := by
  have hscanned : ((scan wholeBuild.sources).run wholeTree).result.isOk = true := by
    decide +kernel
  have hscanned' : ((scan partedBuild.sources).run partedTree).result.isOk = true := by
    decide +kernel
  have hwhole : filesOf wholeTree wholeBuild.sources =
      [⟨"Foo", "int get(int)" ++ Declaration.LineBreak.returnFeed.text ++ "void set(Vector2)\n"⟩,
        ⟨"Bar", "bool ok()\n"⟩] := by
    decide +kernel
  have hparted : filesOf partedTree partedBuild.sources =
      [⟨"Foo", "int get(int)"⟩, ⟨"Bar", "bool ok()\n"⟩, ⟨"Foo", "void set(Vector2)\n"⟩] := by
    decide +kernel
  have hcut : Cut (filesOf wholeTree wholeBuild.sources)
      (filesOf partedTree partedBuild.sources) := by
    rw [hwhole, hparted]
    exact .atBreak [] [⟨"Bar", "bool ok()\n"⟩] [] "Foo" "int get(int)" "void set(Vector2)\n"
      .returnFeed (by decide)
  exact ⟨hscanned, hscanned', .cut hcut,
    makes_sameHeader wholeBuild partedBuild wholeTree partedTree rfl rfl rfl hscanned hscanned'
      (.cut hcut)⟩

end HeaderBuild

end LuaGlue
