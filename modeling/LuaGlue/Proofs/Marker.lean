import LuaGlue.Marker
import LuaGlue.Proofs.Path
import LuaGlue.Proofs.Text.Lines
import LuaGlue.Proofs.Text.Runs
import LuaGlue.Sha256
import Mathlib.Data.List.Basic
import Mathlib.Data.Option.Basic

/-!
# Markers that are read back

A marker is written line by line. It is read back as a marker that says the same exactly if its
fingerprint is a line with nothing to trim and its paths are lines. The fingerprint of a text is
such a line.
-/

namespace LuaGlue

namespace Text

theorem isBlank_hexDigit {n : Nat} (h : n < 16) : isBlank (hexDigit n) = false := by
  have all : ∀ k : Fin 16, isBlank (hexDigit k) = false := by decide
  exact all ⟨n, h⟩

theorem isBlank_of_mem_hexDigits {count n : Nat} {c : Char} (h : c ∈ hexDigits count n) :
    isBlank c = false := by
  induction count generalizing n with
  | zero => cases h
  | succ count ih =>
    rw [hexDigits, List.mem_append, List.mem_singleton] at h
    rcases h with hrest | rfl
    · exact ih hrest
    · exact isBlank_hexDigit (Nat.mod_lt n (by decide))

end Text

theorem Sha256.isBlank_of_mem_fingerprint {text : String} {c : Char}
    (h : c ∈ (fingerprint text).toList) : Text.isBlank c = false := by
  unfold fingerprint at h
  rw [String.toList_ofList] at h
  obtain ⟨w, -, hc⟩ := List.mem_flatMap.1 h
  exact Text.isBlank_of_mem_hexDigits hc

namespace Marker

open Text

/-- The fingerprint of a marker is a line with nothing to trim, and its paths are lines. -/
structure WellFormed (m : Marker) : Prop where
  fingerprint_nonempty : m.fingerprint ≠ ""
  fingerprint_one : '\n' ∉ m.fingerprint.toList
  fingerprint_trimmed : trim m.fingerprint = m.fingerprint
  sources_lines : ∀ source ∈ m.sources, IsLine source.text.toList

def renderedLines (m : Marker) : List (List Char) :=
  banner.toList :: ('/' :: '/' :: ' ' :: m.fingerprint.toList) ::
    m.sources.map fun source => '/' :: '/' :: source.text.toList

theorem render_toList (m : Marker) :
    m.render.toList = m.renderedLines.flatMap fun line => line ++ ['\n'] := by
  unfold render renderedLines
  simp [List.flatMap_map]

theorem WellFormed.trimChars_fingerprint {m : Marker} (h : m.WellFormed) :
    trimChars m.fingerprint.toList = m.fingerprint.toList := by
  rw [← trim_toList, h.fingerprint_trimmed]

/-- A carriage return at the end would have been trimmed. -/
theorem WellFormed.fingerprint_line {m : Marker} (h : m.WellFormed) :
    IsLine m.fingerprint.toList := by
  refine ⟨h.fingerprint_one, fun hreturn => ?_⟩
  rw [← h.trimChars_fingerprint] at hreturn
  have hblank := getLast?_dropEndWhile hreturn
  exact absurd hblank (by decide)

theorem readSources?_eq_some_iff {ls : List (List Char)} {paths : List Path} :
    readSources? ls = some paths ↔ ls = paths.map fun path => '/' :: '/' :: path.text.toList := by
  induction ls generalizing paths with
  | nil =>
    rw [readSources?, Option.some_inj, eq_comm, eq_comm (a := []), List.map_eq_nil_iff]
  | cons line rest ih =>
    constructor
    · intro h
      obtain ⟨path, hpath, h⟩ := Option.bind_eq_some_iff.1 h
      obtain ⟨others, hothers, h⟩ := Option.bind_eq_some_iff.1 h
      cases h
      rw [afterLead?_eq_some_iff.1 hpath, ih.1 hothers, List.map_cons, String.toList_ofList]
      rfl
    · intro h
      cases paths with
      | nil => cases h
      | cons path others =>
        obtain ⟨rfl, hrest⟩ := List.cons_eq_cons.1 h
        rw [readSources?]
        refine Option.bind_eq_some_iff.2 ⟨path.text.toList, afterLead?_eq_some_iff.2 rfl, ?_⟩
        refine Option.bind_eq_some_iff.2 ⟨others, ih.2 hrest, ?_⟩
        rw [String.ofList_toList]
        rfl

/-- The texts with a marker: the banner, the fingerprint, which is trimmed when it is read, and a
line for each path. -/
theorem read?_eq_some_iff {text : String} {m : Marker} :
    read? text = some m ↔
      ∃ fingerprint : List Char, lines text.toList = banner.toList ::
          ('/' :: '/' :: ' ' :: fingerprint) ::
            m.sources.map (fun source => '/' :: '/' :: source.text.toList) ∧
        trimChars fingerprint ≠ [] ∧ m.fingerprint = String.ofList (trimChars fingerprint) := by
  unfold read?
  constructor
  · intro h
    split at h
    · next first second rest hlines =>
      obtain ⟨⟨⟩, hbanner, h⟩ := Option.bind_eq_some_iff.1 h
      obtain ⟨fingerprint, hsecond, h⟩ := Option.bind_eq_some_iff.1 h
      obtain ⟨⟨⟩, hnonempty, h⟩ := Option.bind_eq_some_iff.1 h
      obtain ⟨paths, hpaths, h⟩ := Option.bind_eq_some_iff.1 h
      cases h
      rw [Option.guard_eq_some'] at hbanner hnonempty
      refine ⟨fingerprint, ?_, by simpa using hnonempty, rfl⟩
      rw [hlines, hbanner, afterLead?_eq_some_iff.1 hsecond, readSources?_eq_some_iff.1 hpaths]
      rfl
    · cases h
  · rintro ⟨fingerprint, hlines, hnonempty, hfingerprint⟩
    obtain ⟨_, paths⟩ := m
    obtain rfl := hfingerprint
    rw [hlines]
    -- banner, fingerprint and paths, in the order in which they are read
    refine Option.bind_eq_some_iff.2 ⟨(), (Option.guard_eq_some' ()).2 rfl, ?_⟩
    refine Option.bind_eq_some_iff.2 ⟨fingerprint, afterLead?_eq_some_iff.2 rfl, ?_⟩
    have hguard : (!(trimChars fingerprint).isEmpty) = true := by simpa using hnonempty
    refine Option.bind_eq_some_iff.2 ⟨(), (Option.guard_eq_some' ()).2 hguard, ?_⟩
    exact Option.bind_eq_some_iff.2 ⟨paths, readSources?_eq_some_iff.2 rfl, rfl⟩

theorem WellFormed.isLine_of_mem {m : Marker} (h : m.WellFormed) :
    ∀ line ∈ m.renderedLines, IsLine line := by
  have hbanner : IsLine banner.toList := ⟨by decide, by decide⟩
  have hslashes : IsLine ['/', '/'] := ⟨by decide, by decide⟩
  have hlead : IsLine ['/', '/', ' '] := ⟨by decide, by decide⟩
  unfold renderedLines
  rw [List.forall_mem_cons, List.forall_mem_cons, List.forall_mem_map]
  refine ⟨hbanner, hlead.append h.fingerprint_line, fun source hsource => ?_⟩
  exact hslashes.append (h.sources_lines source hsource)

theorem WellFormed.read?_render {m : Marker} (h : m.WellFormed) : read? m.render = some m := by
  refine read?_eq_some_iff.2 ⟨m.fingerprint.toList, ?_, ?_, ?_⟩
  · rw [render_toList, lines_of_isLine h.isLine_of_mem]
    rfl
  · rw [h.trimChars_fingerprint]
    simpa using h.fingerprint_nonempty
  · rw [h.trimChars_fingerprint, String.ofList_toList]

theorem wellFormed_fingerprint {sources : List Path} (text : String)
    (h : ∀ source ∈ sources, IsLine source.text.toList) :
    WellFormed ⟨Sha256.fingerprint text, sources⟩ := by
  have hblank : ∀ c ∈ (Sha256.fingerprint text).toList, isBlank c = false :=
    fun c hc => Sha256.isBlank_of_mem_fingerprint hc
  refine ⟨?_, ?_, ?_, h⟩
  · intro hempty
    have hlength := Sha256.fingerprint_length text
    rw [show Sha256.fingerprint text = "" from hempty] at hlength
    cases hlength
  · intro hfeed
    cases hblank _ hfeed
  · change trim (Sha256.fingerprint text) = Sha256.fingerprint text
    rw [trim, trimChars_eq_self hblank, String.ofList_toList]

/-! ## Exactly the well-formed markers are read back -/

theorem sameAs_refl (m : Marker) : m.sameAs m = true := by
  rw [sameAs, beq_self_eq_true, Path.allSame_refl, Bool.and_self]

def ReadsBack (m : Marker) : Prop := ∃ found, read? m.render = some found ∧ found.sameAs m = true

def unreturned (path : Path) : Path := ⟨String.ofList (chopReturn path.text.toList)⟩

theorem not_sameAs_unreturned {path : Path} (h : path.text.toList.getLast? = some '\r') :
    (unreturned path).sameAs path = false := by
  rw [← Bool.not_eq_true]
  intro hsame
  have hcount := Path.count_eq_of_sameAs (c := '\r') (by decide) (by decide) hsame
  rw [unreturned, String.toList_ofList, eq_concat_return h, chopReturn_concat_return,
    List.count_append, List.count_singleton_self] at hcount
  omega

theorem renderedLines_map_chopReturn (m : Marker) :
    m.renderedLines.map chopReturn = banner.toList ::
      ('/' :: '/' :: ' ' :: chopReturn m.fingerprint.toList) ::
        (m.sources.map unreturned).map fun source => '/' :: '/' :: source.text.toList := by
  have hbanner : chopReturn banner.toList = banner.toList := chopReturn_eq_self_iff.2 (by decide)
  have hspace : ['/', '/', ' '].getLast? ≠ some '\r' := by decide
  have hslash : ['/', '/'].getLast? ≠ some '\r' := by decide
  unfold renderedLines
  rw [List.map_cons, List.map_cons, hbanner]
  refine congrArg₂ List.cons rfl (congrArg₂ List.cons (chopReturn_append hspace _) ?_)
  rw [List.map_map, List.map_map]
  apply List.map_congr_left
  intro source hsource
  rw [Function.comp_apply, Function.comp_apply, unreturned, String.toList_ofList]
  exact chopReturn_append hslash source.text.toList

/-- If as many paths are found as were written, then no line feed stood within a line, and all that
is lost are carriage returns and white space at the ends. -/
theorem found_eq_of_sources_length {m found : Marker} (h : read? m.render = some found)
    (hlength : found.sources.length = m.sources.length) :
    (∀ line ∈ m.renderedLines, '\n' ∉ line) ∧
      trimChars (chopReturn m.fingerprint.toList) ≠ [] ∧
      found = ⟨String.ofList (trimChars (chopReturn m.fingerprint.toList)),
        m.sources.map unreturned⟩ := by
  obtain ⟨fingerprint, hlines, hnonempty, hfingerprint⟩ := read?_eq_some_iff.1 h
  have hone : ∀ line ∈ m.renderedLines, '\n' ∉ line := by
    apply not_mem_of_length_lines
    rw [← render_toList, hlines]
    simp [renderedLines, hlength]
  rw [render_toList, lines_terminated hone, renderedLines_map_chopReturn] at hlines
  obtain ⟨-, hlines⟩ := List.cons_eq_cons.1 hlines
  obtain ⟨hsecond, hrest⟩ := List.cons_eq_cons.1 hlines
  obtain rfl : chopReturn m.fingerprint.toList = fingerprint := by simpa using hsecond
  have hinjective : Function.Injective fun source : Path => '/' :: '/' :: source.text.toList := by
    rintro ⟨text⟩ ⟨text'⟩ hsame
    obtain rfl : text = text' := String.toList_inj.1 (by simpa using hsame)
    rfl
  have hsources : m.sources.map unreturned = found.sources :=
    List.map_injective_iff.2 hinjective hrest
  refine ⟨hone, hnonempty, ?_⟩
  rw [hsources, ← hfingerprint]

theorem ReadsBack.wellFormed {m : Marker} (h : m.ReadsBack) : m.WellFormed := by
  obtain ⟨found, hread, hsame⟩ := h
  rw [sameAs, Bool.and_eq_true, beq_iff_eq] at hsame
  obtain ⟨hone, hnonempty, rfl⟩ :=
    found_eq_of_sources_length hread (Path.length_eq_of_allSame hsame.2)
  obtain ⟨hfingerprint, hsources⟩ := hsame
  unfold renderedLines at hone
  rw [List.forall_mem_cons, List.forall_mem_cons, List.forall_mem_map] at hone
  obtain ⟨-, hfirst, hpaths⟩ := hone
  -- a trimmed text does not end in a carriage return, so none was dropped
  have htrim : trimChars (chopReturn m.fingerprint.toList) = m.fingerprint.toList := by
    have hchars := congrArg String.toList hfingerprint
    rwa [String.toList_ofList] at hchars
  have hkept : chopReturn m.fingerprint.toList = m.fingerprint.toList := by
    apply chopReturn_eq_self_iff.2
    intro hreturn
    rw [← htrim] at hreturn
    exact absurd (getLast?_dropEndWhile hreturn) (by decide)
  rw [hkept] at htrim hnonempty
  refine ⟨?_, ?_, ?_, fun source hsource => ⟨?_, fun hreturn => ?_⟩⟩
  · intro hempty
    rw [htrim, hempty] at hnonempty
    exact hnonempty rfl
  · exact fun hfeed => hfirst (by simp [hfeed])
  · rw [trim, htrim, String.ofList_toList]
  · exact fun hfeed => hpaths source hsource (by simp [hfeed])
  · have hpath := Path.allSame_map_iff.1 hsources source hsource
    rw [not_sameAs_unreturned hreturn] at hpath
    cases hpath

theorem readsBack_iff_wellFormed {m : Marker} : m.ReadsBack ↔ m.WellFormed :=
  ⟨ReadsBack.wellFormed, fun h => ⟨m, h.read?_render, m.sameAs_refl⟩⟩

/-- Exactly the markers whose fingerprint is a trimmed line, not empty, and whose paths are lines
are read back. The fingerprint of a text always is such a line. -/
theorem readsBack_iff (m : Marker) (text : String) :
    (m.ReadsBack ↔ m.fingerprint ≠ "" ∧ '\n' ∉ m.fingerprint.toList ∧
      IsTrimmed m.fingerprint.toList ∧ ∀ source ∈ m.sources, IsLine source.text.toList) ∧
    (ReadsBack ⟨Sha256.fingerprint text, m.sources⟩ ↔
      ∀ source ∈ m.sources, IsLine source.text.toList) := by
  have htrimmed : trim m.fingerprint = m.fingerprint ↔ IsTrimmed m.fingerprint.toList := by
    rw [← trimChars_eq_self_iff, ← trim_toList, String.toList_inj]
  rw [readsBack_iff_wellFormed, readsBack_iff_wellFormed]
  refine ⟨⟨fun h => ?_, fun h => ?_⟩, fun h => h.sources_lines, wellFormed_fingerprint text⟩
  · exact ⟨h.fingerprint_nonempty, h.fingerprint_one, htrimmed.1 h.fingerprint_trimmed,
      h.sources_lines⟩
  · obtain ⟨hnonempty, hone, htrim, hlines⟩ := h
    exact ⟨hnonempty, hone, htrimmed.2 htrim, hlines⟩

/-- Slashes that a path begins with are not taken for those before it, and an empty path is kept. -/
example : read? (render ⟨"5f2b", [⟨""⟩, ⟨"/Foo.h"⟩, ⟨"//Foo.h"⟩, ⟨""⟩]⟩) =
    some ⟨"5f2b", [⟨""⟩, ⟨"/Foo.h"⟩, ⟨"//Foo.h"⟩, ⟨""⟩]⟩ := by
  decide

end Marker

end LuaGlue
