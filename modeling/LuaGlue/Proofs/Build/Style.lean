import LuaGlue.Proofs.Build.OldMarker
import LuaGlue.Proofs.FileTree.Contents
import LuaGlue.Proofs.Header.Gaps
import LuaGlue.Proofs.Text.Runs

/-!
# The style of a header

The style of a header decides its first lines and nothing else: not whether a build ends well, nor
for what reason it fails, nor any file but the header and the marker. Headers of two styles are
never the same, as long as guard and included file of one of them stand on one line each.
-/

namespace LuaGlue

open FileTree

/-! ## The first lines -/

structure HeaderStyle.OneLine (style : HeaderStyle) : Prop where
  guardName : '\n' ∉ style.guardName.toList
  includedFile : '\n' ∉ style.includedFile.toList

theorem HeaderStyle.oneLine_standard : standard.OneLine := ⟨by decide, by decide⟩

namespace Header

/-- What a style adds to the banner of a header. -/
def styleChars (style : HeaderStyle) : List Char :=
  style.guardName.toList ++ '\n' :: ("#define ".toList ++ (style.guardName.toList ++
    '\n' :: ("#include \"".toList ++ (style.includedFile.toList ++ "\"\n\n".toList))))

theorem toList_prologue (style : HeaderStyle) :
    (prologue style).toList = (banner ++ "\n#ifndef ").toList ++ styleChars style := by
  simp [prologue, styleChars]

theorem count_styleChars (style : HeaderStyle) :
    (styleChars style).count '\n' =
      2 * style.guardName.toList.count '\n' + style.includedFile.toList.count '\n' + 4 := by
  simp [styleChars]
  omega

theorem takeWhile_styleChars {style : HeaderStyle} (h : '\n' ∉ style.guardName.toList) :
    (styleChars style).takeWhile (· != '\n') = style.guardName.toList := by
  refine Text.takeWhile_run (fun c hc => ?_) ?_
  · rw [bne_iff_ne]
    rintro rfl
    exact h hc
  · rintro c ⟨⟩
    rfl

theorem prologue_inj {style style' : HeaderStyle} (lines : style'.OneLine)
    (h : prologue style = prologue style') : style = style' := by
  have hchars : styleChars style = styleChars style' := by
    have htexts := congrArg String.toList h
    rw [toList_prologue, toList_prologue] at htexts
    exact List.append_cancel_left htexts
  -- as many lines, so no line feed in the other style either
  have hcounts := congrArg (List.count '\n') hchars
  rw [count_styleChars, count_styleChars, List.count_eq_zero.2 lines.guardName,
    List.count_eq_zero.2 lines.includedFile] at hcounts
  have hline : '\n' ∉ style.guardName.toList := List.count_eq_zero.1 (by omega)
  have hguard : style.guardName = style'.guardName := by
    rw [← String.toList_inj, ← takeWhile_styleChars hline, hchars,
      takeWhile_styleChars lines.guardName]
  have hfile : style.includedFile = style'.includedFile := by
    unfold styleChars at hchars
    rw [hguard] at hchars
    exact String.toList_inj.1 (by simpa using hchars)
  cases style
  cases style'
  rw [HeaderStyle.mk.injEq]
  exact ⟨hguard, hfile⟩

/-- The part of a header that its style does not decide. -/
def body (h : Header) : String :=
  String.join (h.sections.map Section.text) ++ Umbrella.text h.typeNames ++ "\n#endif\n"

theorem text_eq (h : Header) : h.text = prologue h.style ++ h.body := by
  rw [text, body, String.append_assoc, String.append_assoc, String.append_assoc]

/-- The same sections in two styles make two texts. -/
theorem style_eq_of_text {h : Header} {style : HeaderStyle} (lines : style.OneLine)
    (htext : h.text = { h with style := style }.text) : h.style = style := by
  have hbody : { h with style := style }.body = h.body := rfl
  rw [text_eq, text_eq, hbody, String.append_left_inj] at htext
  exact prologue_inj lines htext

end Header

/-! ## Two runs that end together -/

theorem map_map_unit {ε α β : Type} (result : Except ε α) (f : α → β) :
    (result.map f).map (fun _ => ()) = result.map fun _ => () := by
  cases result <;> rfl

/-- Both runs end well, or both fail for the same reason, and their trees differ at most in the
bytes of the given files. -/
structure Run.EndTogether {ε α β : Type} (files : List Location) (r : Run ε α) (r' : Run ε β) :
    Prop where
  result : r'.result.map (fun _ => ()) = r.result.map fun _ => ()
  tree : DifferAt files r.tree r'.tree

namespace Run.EndTogether

variable {ε α β : Type} {files files' : List Location} {r : Run ε α} {r' : Run ε β}

theorem of_fails {x : Job ε α} {x' : Job ε β} {t t' : FileTree} {failure : ε}
    (h : x.Fails t failure t') (h' : x'.Fails t failure t') :
    EndTogether files (x.run t) (x'.run t) := by
  refine ⟨?_, ?_⟩
  · rw [h.1, h'.1]
    rfl
  · rw [h.2, h'.2]
    exact .refl t'

theorem of_ends {x : Job ε α} {x' : Job ε β} {t left left' : FileTree} {value : α} {value' : β}
    (h : x.Ends t value left) (h' : x'.Ends t value' left') (tree : DifferAt files left left') :
    EndTogether files (x.run t) (x'.run t) := by
  refine ⟨?_, ?_⟩
  · rw [h.1, h'.1]
    rfl
  · rw [h.2, h'.2]
    exact tree

theorem after {γ δ : Type} {x : Job ε α} {x' : Job ε β} {f : α → Job ε γ} {f' : β → Job ε δ}
    {t t' between between' : FileTree} {value : α} {value' : β} (h : x.Ends t value between)
    (h' : x'.Ends t' value' between')
    (hrest : EndTogether files ((f value).run between) ((f' value').run between')) :
    EndTogether files ((x.bind f).run t) ((x'.bind f').run t') := by
  obtain ⟨hresult, htree⟩ := Job.run_bind_of_ends (f := f) h
  obtain ⟨hresult', htree'⟩ := Job.run_bind_of_ends (f := f') h'
  refine ⟨?_, ?_⟩
  · rw [hresult, hresult', hrest.result]
  · rw [htree, htree']
    exact hrest.tree

end Run.EndTogether

namespace HeaderBuild

/-! ## Writing two products -/

section

variable {t t' : FileTree} {headerPath markerPath : Path} {p p' : Product}

theorem saveText_cases (t : FileTree) (path : Path) (text text' : String) :
    (∃ left left', (Build.saveText path text).Ends t () left ∧
        (Build.saveText path text').Ends t () left' ∧ AlikeBut (t.place path) left left') ∨
      ∃ failure left, (Build.saveText path text).Fails t failure left ∧
        (Build.saveText path text').Fails t failure left := by
  have hsaved := save_alike t path text.toUTF8 text'.toUTF8
  unfold Job.Ends Job.Fails Build.saveText
  rw [Job.run, Job.run]
  generalize t.save path text.toUTF8 = saved at hsaved ⊢
  generalize t.save path text'.toUTF8 = saved' at hsaved ⊢
  cases hsaved with
  | saved alike => exact Or.inl ⟨_, _, ⟨rfl, rfl⟩, ⟨rfl, rfl⟩, alike⟩
  | lost made lost => exact Or.inr ⟨_, _, ⟨rfl, rfl⟩, ⟨rfl, rfl⟩⟩

theorem saveText_together {location : Location} (alike : AlikeBut location t t') (path : Path)
    (text text' : String) :
    ((Build.saveText path text).run t).EndTogether [location, t.place path]
      ((Build.saveText path text').run t') := by
  have hreads : (Build.saveText path text).ReadsAt fun _ => False := by
    rintro (lost | above) <;> trivial
  have hsame := Job.run_alike hreads alike nofun
  have hother : ((Build.saveText path text).run t').EndTogether [t'.place path]
      ((Build.saveText path text').run t') := by
    rcases saveText_cases t' path text text' with
      ⟨left, left', hends, hends', halike⟩ | ⟨failure, left, hfails, hfails'⟩
    · exact .of_ends hends hends' (.of_alike halike)
    · exact .of_fails hfails hfails'
  rw [alike.place_eq] at hother
  refine ⟨hother.result.trans ?_, ?_⟩
  · rw [hsame.result]
  · exact ((DifferAt.of_alike hsame.tree).mono (by simp)).trans (hother.tree.mono (by simp))

theorem write_together (t : FileTree) (headerPath : Path) (markerPath? : Option Path)
    (p p' : Product) :
    ((write headerPath markerPath? p).run t).EndTogether
      ((headerPath :: markerPath?.toList).map t.place)
      ((write headerPath markerPath? p').run t) := by
  rcases saveText_cases t headerPath p.header.text p'.header.text with
    ⟨left, left', hends, hends', halike⟩ | ⟨failure, left, hfails, hfails'⟩
  · have hnote : ∀ left : FileTree, (Job.note (ε := Failure) .info
        ("Wrote Lua bindings: " ++ headerPath.text)).Ends left () left := fun _ => ⟨rfl, rfl⟩
    unfold write
    simp only [Job.bind_eq_bind]
    refine .after hends hends' (.after (hnote left) (hnote left') ?_)
    cases markerPath? with
    | none => exact ⟨rfl, .of_alike halike⟩
    | some markerPath =>
      have hfolder : left.workFolder = t.workFolder := by
        rw [← hends.2, Job.workFolder_run]
      have hmarker := saveText_together halike markerPath p.marker.render p'.marker.render
      rwa [place_congr hfolder] at hmarker
  · exact .of_fails (Job.fails_bind_iff.2 (Or.inl hfails)) (Job.fails_bind_iff.2 (Or.inl hfails'))

/-- Over a header and a marker that are there already both can be written. -/
theorem write_over {old old' : ByteArray} (hheader : t.read headerPath = .ok old)
    (hmarker : t.read markerPath = .ok old') (p : Product) :
    ∃ t', (write headerPath (some markerPath) p).Ends t () t' ∧
      DifferAt [t.place headerPath, t.place markerPath] t t' := by
  let written := t.insert (t.place headerPath) (.file p.header.text.toUTF8)
  have hsave : (Build.saveText headerPath p.header.text).Ends t () written :=
    saveText_onto hheader _
  have hentry := (read_eq_ok_iff.1 hheader).2
  have hwritten : AlikeBut (t.place headerPath) t written :=
    .of_insert hentry (fun hother => absurd rfl hother) ⟨old, hentry⟩
  obtain ⟨old'', hmarker'⟩ := hwritten.read_eq_ok hmarker
  have hsave' := saveText_onto hmarker' p.marker.render
  have hentry' := (read_eq_ok_iff.1 hmarker').2
  rw [hwritten.place_eq] at hsave' hentry'
  let marked := written.insert (t.place markerPath) (.file p.marker.render.toUTF8)
  have hmarked : AlikeBut (t.place markerPath) written marked :=
    .of_insert hentry' (fun hother => absurd rfl hother) ⟨old'', hentry'⟩
  refine ⟨marked, Job.ends_bind_iff.2 ⟨(), written, hsave, ?_⟩, ?_⟩
  · exact Job.ends_bind_iff.2 ⟨(), written, ⟨rfl, rfl⟩, hsave'⟩
  · exact ((DifferAt.of_alike hwritten).mono (by simp)).trans
      ((DifferAt.of_alike hmarked).mono (by simp))

theorem write_over_settled {markerPath? : Option Path} (h : Settled t headerPath markerPath? p)
    (p' : Product) :
    ∃ t', (write headerPath markerPath? p').Ends t () t' ∧
      DifferAt ((headerPath :: markerPath?.toList).map t.place) t t' := by
  obtain ⟨markerPath, rfl, ⟨old, hold, -⟩, hheader⟩ := h
  obtain ⟨text, htext, -⟩ := Option.bind_eq_some_iff.1 hold
  obtain ⟨content, hmarker, -⟩ := Build.textAt?_eq_some_iff.1 htext
  exact write_over hheader hmarker p'

/-- Two products are settled together, also if one of them is there already. -/
theorem settle_together {markerPath? : Option Path} {upToDate upToDate' : Bool}
    (hlook : upToDate = true → Settled t headerPath markerPath? p)
    (hlook' : upToDate' = true → Settled t headerPath markerPath? p') :
    ((settle headerPath markerPath? p upToDate).run t).EndTogether
      ((headerPath :: markerPath?.toList).map t.place)
      ((settle headerPath markerPath? p' upToDate').run t) := by
  cases upToDate with
  | true =>
    cases upToDate' with
    | true =>
      have hnote : ∀ p, (settle headerPath markerPath? p true).Ends t () t := fun _ => ⟨rfl, rfl⟩
      exact .of_ends (hnote p) (hnote p') (.refl t)
    | false =>
      obtain ⟨t', hends, htree⟩ := write_over_settled (hlook rfl) p'
      exact .of_ends ⟨rfl, rfl⟩ hends htree
  | false =>
    cases upToDate' with
    | true =>
      obtain ⟨t', hends, htree⟩ := write_over_settled (hlook' rfl) p
      exact .of_ends hends ⟨rfl, rfl⟩ htree.symm
    | false => exact write_together t headerPath markerPath? p p'

end

/-! ## Builds in two styles -/

def withStyle (b : HeaderBuild) (style : HeaderStyle) : HeaderBuild := { b with style }

variable {b : HeaderBuild} {t : FileTree}

theorem verdict_withStyle (b : HeaderBuild) (style : HeaderStyle) (c : Catalog) :
    (b.withStyle style).verdict c =
      (b.verdict c).map fun _ => (b.withStyle style).productFor c := by
  have hgaps : ((b.withStyle style).productFor c).header.gaps = (b.productFor c).header.gaps :=
    (Header.gaps_ofCatalog b.conversions style c).trans
      (Header.gaps_ofCatalog b.conversions b.style c).symm
  have hobstacle : (b.withStyle style).obstacle? ((b.withStyle style).productFor c) =
      b.obstacle? (b.productFor c) := by
    unfold obstacle?
    rw [hgaps]
    rfl
  unfold verdict
  rw [hobstacle]
  cases b.obstacle? (b.productFor c) <;> rfl

theorem generate_withStyle_of_error {failure : Failure} (style : HeaderStyle)
    (h : (b.generate.run t).result = .error failure) :
    ((b.withStyle style).generate.run t).result = .error failure := by
  rw [generate_result] at h ⊢
  change ((scan b.sources).run t).result.bind _ = _
  cases hscan : ((scan b.sources).run t).result with
  | error other =>
    rw [hscan] at h
    exact h
  | ok c =>
    rw [hscan] at h
    change b.verdict c = _ at h
    change (b.withStyle style).verdict c = _
    rw [verdict_withStyle, h]
    rfl

theorem generate_withStyle {p : Product} (style : HeaderStyle) (h : b.generate.Ends t p t) :
    ∃ p', (b.withStyle style).generate.Ends t p' t ∧
      p'.header = { p.header with style := style } := by
  obtain ⟨c, hscan, rfl⟩ := generate_eq_productFor h
  refine ⟨(b.withStyle style).productFor c, ⟨?_, generate_tree _ t⟩, rfl⟩
  have hverdict : b.verdict c = .ok (b.productFor c) := by
    have hresult := h.1
    rw [generate_result, hscan] at hresult
    exact hresult
  rw [generate_result]
  change ((scan b.sources).run t).result.bind _ = _
  rw [hscan]
  change (b.withStyle style).verdict c = _
  rw [verdict_withStyle, hverdict]
  rfl

theorem look_cases (t : FileTree) (headerPath : Path) (markerPath? : Option Path) :
    (∃ markerPath, markerPath? = some markerPath ∧ MarkerFails t markerPath) ∨
      ∀ p, ∃ upToDate, (isUpToDate headerPath markerPath? p).Ends t upToDate t := by
  cases markerPath? with
  | none => exact Or.inr fun p => ⟨false, rfl, rfl⟩
  | some markerPath =>
    by_cases h : MarkerFails t markerPath
    · exact Or.inl ⟨markerPath, rfl, h⟩
    · exact Or.inr (isUpToDate_of_not_markerFails h headerPath)

/-- A build in another style ends well or fails for the same reason, and only header and marker can
be others. -/
theorem build_withStyle (b : HeaderBuild) (style : HeaderStyle) (t : FileTree) :
    (b.build.run t).EndTogether (b.outputs.map t.place) ((b.withStyle style).build.run t) := by
  cases hheader : b.headerPath? with
  | none =>
    unfold build
    simp only [withStyle, hheader]
    exact ⟨rfl, .refl t⟩
  | some headerPath =>
    have houtputs : b.outputs = headerPath :: b.markerPath?.toList := by
      unfold outputs
      rw [hheader]
      rfl
    have hsome : b.headerPath? ≠ none := by
      rw [hheader]
      exact nofun
    rw [houtputs]
    cases hresult : (b.generate.run t).result with
    | error failure =>
      obtain ⟨htree, hfailure⟩ := build_of_generate_error hresult
      obtain ⟨htree', hfailure'⟩ :=
        build_of_generate_error (generate_withStyle_of_error style hresult)
      exact .of_fails ⟨hfailure hsome, htree⟩ ⟨hfailure' hsome, htree'⟩
    | ok p =>
      have hgenerate : b.generate.Ends t p t := ⟨hresult, generate_tree b t⟩
      obtain ⟨p', hgenerate', -⟩ := generate_withStyle style hgenerate
      -- the old marker is read before the product is compared with it
      rcases look_cases t headerPath b.markerPath? with ⟨markerPath, hmarker, hfails⟩ | hlooks
      · have hmarker' : (b.withStyle style).markerPath? = some markerPath := hmarker
        exact .of_fails (build_fails_of_markerFails hheader hmarker hgenerate hfails)
          (build_fails_of_markerFails hheader hmarker' hgenerate' hfails)
      · obtain ⟨upToDate, hlook⟩ := hlooks p
        obtain ⟨upToDate', hlook'⟩ := hlooks p'
        obtain ⟨hbuild, hleft⟩ := build_run_of_look hheader hgenerate hlook
        obtain ⟨hbuild', hleft'⟩ :=
          build_run_of_look (b := b.withStyle style) hheader hgenerate' hlook'
        have hsettle := settle_together (isUpToDate_ends hlook).1 (isUpToDate_ends hlook').1
        refine ⟨?_, ?_⟩
        · rw [hbuild, hbuild', map_map_unit, map_map_unit]
          exact hsettle.result
        · rw [hleft, hleft']
          exact hsettle.tree

/-! ## The headers of two styles -/

theorem read_header_of_build_ends {t' : FileTree} {p : Product} {headerPath : Path}
    (header : b.headerPath? = some headerPath)
    (apart : ∀ markerPath, b.markerPath? = some markerPath →
      t.place headerPath ≠ t.place markerPath)
    (h : b.build.Ends t p t') : t'.read headerPath = .ok p.header.text.toUTF8 := by
  obtain ⟨path, upToDate, hpath, -, -, hsettled, hsettle⟩ := build_ends h
  obtain rfl := Option.some.inj (header.symm.trans hpath)
  cases upToDate with
  | true =>
    obtain rfl : t = t' := hsettle.2
    obtain ⟨-, -, -, hread⟩ := hsettled.1 rfl
    exact hread
  | false => exact (write_ends apart hsettle).2.1

/-- Two builds that end well and leave the same tree have the same style, if header and marker are
two files. -/
theorem style_eq_of_same_tree {t' : FileTree} {p p' : Product} {headerPath : Path}
    {style : HeaderStyle} (lines : style.OneLine) (header : b.headerPath? = some headerPath)
    (apart : ∀ markerPath, b.markerPath? = some markerPath →
      t.place headerPath ≠ t.place markerPath)
    (h : b.build.Ends t p t') (h' : (b.withStyle style).build.Ends t p' t') : b.style = style := by
  have hread := read_header_of_build_ends header apart h
  have hread' := read_header_of_build_ends (b := b.withStyle style) header apart h'
  obtain ⟨-, -, -, -, hgenerate, -, -⟩ := build_ends h
  obtain ⟨-, -, -, -, hgenerate', -, -⟩ := build_ends h'
  obtain ⟨q, hother, hq⟩ := generate_withStyle style hgenerate
  have hheader : p'.header = { p.header with style := style } := by
    have hsame := Except.ok.inj (hgenerate'.1.symm.trans hother.1)
    exact (congrArg Product.header hsame).trans hq
  have htext : p.header.text = p'.header.text := by
    have hbytes := congrArg Text.ofUtf8? (Except.ok.inj (hread.symm.trans hread'))
    rwa [Text.ofUtf8?_toUTF8, Text.ofUtf8?_toUTF8, Option.some_inj] at hbytes
  rw [hheader] at htext
  obtain ⟨c, -, hp⟩ := generate_eq_productFor hgenerate
  have hstyle : p.header.style = b.style := congrArg (·.header.style) hp
  rw [← hstyle, Header.style_eq_of_text lines htext]

end HeaderBuild

end LuaGlue
