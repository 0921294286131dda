import Bindery.Proofs.Files.Beside

/-!
# What is done in one directory

`sameFiles_runAll`: what is done in one directory and on the way to it neither sees nor changes what
is in the directories beside it, so that it does not matter in which order such things are done.
-/

namespace Bindery.FileSystem

open Bindery.Path Entry

variable {fs fs' fs₂ fs₂' : FileSystem} {out name : String} {names : List String} {l : Location}

/-! ## Writing and removing -/

section

variable {path : String} (h : Direct path)

include h

theorem writeText_of_error {text : String} {fault : OsFault}
    (hlook : fs.lookAt path = .error fault) : fs.writeText path text = .error fault := by
  rw [writeText, locate_of_lookAt_error h hlook]
  rfl

theorem writeText_of_directory {text : String} (hlook : fs.lookAt path = .ok (some .directory)) :
    fs.writeText path text = .error .isADirectory := by
  obtain ⟨found, hlocate, hfound⟩ := locate_of_lookAt_ok h hlook
  rw [writeText, hlocate]
  rcases found with _ | (content | entries)
  · cases hfound
  · cases hfound
  · rfl

theorem writeText_of_free (text : String) {found : Option Kind}
    (hlook : fs.lookAt path = .ok found) (hfound : found ≠ some .directory) :
    ∃ fs', fs.writeText path text = .ok fs' ∧
      Puts (fs.place path) (.file (.text text)) fs fs' := by
  obtain ⟨e, hlocate, rfl⟩ := locate_of_lookAt_ok h hlook
  refine ⟨_, ?_, puts_place h hlook hfound⟩
  rw [writeText, hlocate]
  rcases e with _ | (content | entries)
  · rfl
  · rfl
  · exact absurd rfl hfound

theorem removeDirectory_of_file {content : Content}
    (hlook : fs.lookAt path = .ok (some (.file content))) :
    fs.removeDirectory path = .error .notADirectory := by
  obtain ⟨found, hlocate, hfound⟩ := locate_of_lookAt_ok h hlook
  rw [removeDirectory, hlocate]
  rcases found with _ | (content | entries)
  · cases hfound
  · rfl
  · cases hfound

theorem removeDirectory_of_directory (hlook : fs.lookAt path = .ok (some .directory)) :
    ∃ fs', fs.removeDirectory path = .ok fs' ∧ fs'.working = fs.working ∧
      ∀ m, fs'.kindAt m = if fs.place path <+: m then none else fs.kindAt m := by
  obtain ⟨found, hlocate, hfound⟩ := locate_of_lookAt_ok h hlook
  have hne : fs.place path ≠ [] := by
    obtain ⟨name, before, hparts⟩ := h.exists_parts
    rw [place]
    refine List.append_ne_nil_of_right_ne_nil _ fun hnil => ?_
    simp [hnil] at hparts
  rw [removeDirectory, hlocate]
  rcases found with _ | (content | entries)
  · cases hfound
  · cases hfound
  · exact ⟨_, rfl, rfl, kindAt_remove hne fs.root⟩

end

theorem writeIn_of_ensure_eq {directory text : String} {made : FileSystem}
    (h : fs.ensure directory = (none, made)) :
    fs.writeIn directory name text =
      ((made.attempt (made.writeText (join directory name) text)).1.map
        fun cause => ⟨.writeFile, join directory name, cause⟩,
        (made.attempt (made.writeText (join directory name) text)).2) := by
  rw [writeIn, h]
  simp only
  cases made.writeText (join directory name) text <;> rfl

/-! ## What is done in a directory -/

section

variable {path : String} (hup : ".." ∉ rawParts out) (hname : IsName name)

include hup hname

theorem direct_join : Direct (join out name) where
  notUp := hname.not_mem_rawParts_join hup
  named := by
    obtain ⟨before, hraw, -, -⟩ := hname.exists_rawParts_join out
    exact ⟨before, name, hraw, hname.leading⟩

omit hup in
theorem start_join (fs : FileSystem) : fs.start (join out name) = fs.start out := by
  rw [start, start, hname.isAbsolute_join]

omit hup in
theorem reverse_parts_join : (parts (join out name)).reverse = name :: (parts out).reverse := by
  rw [hname.parts_join, List.reverse_append, List.reverse_singleton, List.singleton_append]

theorem isName_of_mem_parts : ∀ part ∈ name :: (parts out).reverse, IsName part := by
  intro part hpart
  rcases List.mem_cons.1 hpart with rfl | hpart
  · exact hname
  · obtain ⟨hraw, hleads⟩ := List.mem_filter.1 (List.mem_reverse.1 hpart)
    exact ⟨hleads, fun heq => hup (heq ▸ hraw), noSlash_of_mem_rawParts hraw⟩

omit hup hname in
theorem noNul_of_mem_parts (hnul : (join out name).contains '\x00' = false) :
    ∀ part ∈ (parts (join out name)).reverse, '\x00' ∉ part.toList := by
  intro part hpart hmem
  obtain ⟨hraw, -⟩ := List.mem_filter.1 (List.mem_reverse.1 hpart)
  obtain ⟨piece, hpiece, rfl⟩ := List.mem_map.1 hraw
  rw [String.toList_ofList] at hmem
  rw [String.contains_char_eq, decide_eq_false_iff_not] at hnul
  exact hnul ((Text.flatten_splitFrom_sublist 0 _).subset (List.mem_flatten_of_mem hpiece hmem))

/-- Either the path is refused as such, or directories are made as far as nothing is in the
way. -/
theorem makeDirectories_cases :
    (∃ fault, ∀ fs : FileSystem, fs.makeDirectories (join out name) = (some fault, fs)) ∨
      ∀ fs : FileSystem, MakesWay (fs.start out) (name :: (parts out).reverse) fs
        (fs.makeDirectories (join out name)) := by
  by_cases hnul : (join out name).contains '\x00' = true
  · exact .inl ⟨.nulInPath, fun fs => by rw [makeDirectories, if_pos hnul]⟩
  · have hnuls := noNul_of_mem_parts (Bool.eq_false_iff.2 hnul)
    have hnames := isName_of_mem_parts hup hname
    rw [reverse_parts_join hname] at hnuls
    by_cases hsize : pathLimit ≤
        (pathOf (isAbsolute (join out name)) (name :: (parts out).reverse)).utf8ByteSize
    · refine .inl ⟨.nameTooLong, fun fs => ?_⟩
      rw [makeDirectories, if_neg hnul, reverse_parts_join hname,
        makeAlong_of_long hnames hnuls hsize]
    · refine .inr fun fs => ?_
      rw [makeDirectories, if_neg hnul, reverse_parts_join hname, start, ← hname.isAbsolute_join]
      exact makesWay_makeAlong hnames hnuls (Nat.not_le.1 hsize)

theorem exists?_eq (h : Beside out names fs fs₂) (hmem : name ∉ names) :
    fs₂.exists? (join out name) = fs.exists? (join out name) := by
  have hinside := h.inside hmem (List.prefix_refl (fs.place out ++ [name]))
  rw [← place_join hname] at hinside
  rw [Bool.eq_iff_iff, exists?_iff (direct_join hup hname), exists?_iff (direct_join hup hname),
    place_eq_of_working h.working, hinside]

theorem confined_ensure : Confined out name fun fs => fs.ensure (join out name) := by
  intro names fs fs₂ hmem h
  have hexists := exists?_eq hup hname h hmem
  simp only [ensure, hexists]
  split_ifs with hthere
  · exact .stay h none
  · rcases makeDirectories_cases hup hname with ⟨fault, hrefused⟩ | hmakes
    · rw [hrefused, hrefused]
      exact .stay h _
    · obtain ⟨hfault, hpaved⟩ := hmakes fs
      obtain ⟨hfault₂, hpaved₂⟩ := hmakes fs₂
      have hobstacle := h.obstacle hmem List.suffix_rfl
      rw [hfault, hfault₂, start_eq_of_working h.working, hobstacle]
      exact alike_of_paved h hmem _ hpaved hpaved₂

/-- Once it was made sure that a directory is there, something is. -/
theorem kindAt_ensure (fs : FileSystem) (h : (fs.ensure (join out name)).1 = none) :
    (fs.ensure (join out name)).2.kindAt (fs.place out ++ [name]) ≠ none := by
  rw [ensure] at h ⊢
  split_ifs at h ⊢ with hthere
  · rw [← place_join hname]
    exact ((exists?_iff (direct_join hup hname)).1 hthere).2
  · rcases makeDirectories_cases hup hname with ⟨fault, hrefused⟩ | hmakes
    · simp [hrefused] at h
    · obtain ⟨hfault, hpaved⟩ := hmakes fs
      simp only [Option.map_eq_none_iff, hfault] at h
      have hmade := hpaved.made _ List.suffix_rfl h
      rw [List.reverse_cons, List.reverse_reverse, ← List.append_assoc] at hmade
      exact ne_of_eq_of_ne hmade (Option.some_ne_none _)

omit hup in
/-- What a name in the directory leads to is the same, once the directory is there. -/
theorem lookAt_join_join {unit : String} (hunit : IsName unit) (h : Beside out names fs fs₂)
    (hmem : name ∉ names) (hthere : fs.kindAt (fs.place out ++ [name]) ≠ none) :
    fs₂.lookAt (join (join out name) unit) = fs.lookAt (join (join out name) unit) := by
  have hparts : (parts (join (join out name) unit)).reverse =
      unit :: name :: (parts out).reverse := by
    rw [hunit.parts_join, List.reverse_append, List.reverse_singleton, List.singleton_append,
      reverse_parts_join hname]
  have hstart (fs : FileSystem) : fs.start (join (join out name) unit) = fs.start out := by
    rw [start_join hunit, start_join hname]
  have hlook : fs₂.look (fs.start out) (unit :: name :: (parts out).reverse) =
      fs.look (fs.start out) (unit :: name :: (parts out).reverse) := by
    refine look_congr fun q hq => ?_
    rcases List.suffix_cons_iff.1 hq with rfl | hq
    · refine h.inside hmem ⟨[unit], ?_⟩
      simp [place]
    · rcases suffix_cases fs hq with rfl | hway | ⟨-, hlast⟩
      · rw [List.reverse_nil, List.append_nil, h.atStart]
      · have hdirectory := hway.directory hthere
        rw [hdirectory, h.directory hway hdirectory]
      · rw [hlast, h.inside hmem List.prefix_rfl]
  rw [lookAt, lookAt, hparts, hstart, hstart, start_eq_of_working h.working, hlook]

/-- A file is written in the directory in the same way, once the directory is there. -/
theorem alike_writeText {unit : String} (hunit : IsName unit) (text : String)
    (h : Beside out names fs fs₂) (hmem : name ∉ names)
    (hthere : fs.kindAt (fs.place out ++ [name]) ≠ none) :
    Alike out name names fs fs₂
      (fs.attempt (fs.writeText (join (join out name) unit) text))
      (fs₂.attempt (fs₂.writeText (join (join out name) unit) text)) := by
  have hdirect := direct_join (hname.not_mem_rawParts_join hup) hunit
  have hlook := lookAt_join_join hname hunit h hmem hthere
  cases hfound : fs.lookAt (join (join out name) unit) with
  | error fault =>
      rw [writeText_of_error hdirect hfound, writeText_of_error hdirect (hlook.trans hfound)]
      exact .stay h _
  | ok found =>
      by_cases hdirectory : found = some .directory
      · subst hdirectory
        rw [writeText_of_directory hdirect hfound,
          writeText_of_directory hdirect (hlook.trans hfound)]
        exact .stay h _
      · obtain ⟨fs', hwrite, hputs⟩ := writeText_of_free hdirect text hfound hdirectory
        obtain ⟨fs₂', hwrite₂, hputs₂⟩ :=
          writeText_of_free hdirect text (hlook.trans hfound) hdirectory
        rw [place_eq_of_working h.working] at hputs₂
        have hplace : fs.place out ++ [name] <+: fs.place (join (join out name) unit) := by
          rw [place_join hunit, place_join hname]
          exact List.prefix_append _ _
        have hne (l : Location) (hl : ¬ fs.place out ++ [name] <+: l) :
            l ≠ fs.place (join (join out name) unit) := by
          rintro rfl
          exact hl hplace
        rw [hwrite, hwrite₂]
        refine .of_inside h _ hputs.working hputs₂.working (fun l hl => ?_) (fun l hl => ?_)
          fun l hl => ?_
        · rw [hputs.kindAt, hputs₂.kindAt, h.inside hmem hl]
        · rw [hputs.kindAt, if_neg (hne l hl)]
        · rw [hputs₂.kindAt, if_neg (hne l hl)]

theorem confined_writeIn {unit : String} (hunit : IsName unit) (text : String) :
    Confined out name fun fs => fs.writeIn (join out name) unit text := by
  intro names fs fs₂ hmem h
  have hensure := confined_ensure hup hname names fs fs₂ hmem h
  have hthere := kindAt_ensure hup hname fs
  rcases hmake : fs.ensure (join out name) with ⟨fault, made⟩
  rcases hmake₂ : fs₂.ensure (join out name) with ⟨fault₂, made₂⟩
  simp only [hmake, hmake₂] at hensure hthere
  obtain rfl : fault₂ = fault := hensure.result
  cases fault₂ with
  | some fault =>
      simp only [writeIn, hmake, hmake₂]
      exact hensure
  | none =>
      refine hensure.trans ?_
      have hplace := place_eq_of_working hensure.frame.working out
      have hwrite := alike_writeText hup hname hunit text hensure.beside hmem
        (hplace ▸ hthere rfl)
      simp only [writeIn_of_ensure_eq hmake, writeIn_of_ensure_eq hmake₂]
      exact hwrite.map (Option.map fun cause =>
        FileFault.mk .writeFile (join (join out name) unit) cause)

theorem confined_clear :
    Confined out name fun fs => fs.attempt (fs.clear (join out name)) := by
  intro names fs fs₂ hmem h
  have hdirect := direct_join hup hname
  have hexists := exists?_eq hup hname h hmem
  have hplace : fs.place (join out name) = fs.place out ++ [name] := place_join hname fs
  simp only [clear, hexists]
  by_cases hthere : fs.exists? (join out name) = true
  · rw [if_pos hthere, if_pos hthere]
    obtain ⟨hpath, hfound⟩ := (exists?_iff hdirect).1 hthere
    obtain ⟨k, hkind⟩ := Option.ne_none_iff_exists'.1 hfound
    have hkind₂ : fs₂.kindAt (fs₂.place (join out name)) = some k := by
      rw [place_eq_of_working h.working, hplace, h.inside hmem List.prefix_rfl, ← hplace, hkind]
    have hlook := lookAt_eq_some_iff.2 ⟨hpath, hkind⟩
    have hlook₂ := lookAt_eq_some_iff.2 ⟨hpath, hkind₂⟩
    cases k with
    | file content =>
        rw [removeDirectory_of_file hdirect hlook, removeDirectory_of_file hdirect hlook₂]
        exact .stay h _
    | directory =>
        obtain ⟨fs', hremove, hworking, hkinds⟩ := removeDirectory_of_directory hdirect hlook
        obtain ⟨fs₂', hremove₂, hworking₂, hkinds₂⟩ := removeDirectory_of_directory hdirect hlook₂
        rw [place_eq_of_working h.working, hplace] at hkinds₂
        rw [hplace] at hkinds
        rw [hremove, hremove₂]
        refine .of_inside h _ hworking hworking₂ (fun l hl => ?_) (fun l hl => ?_) fun l hl => ?_
        · rw [hkinds, hkinds₂, if_pos hl, if_pos hl]
        · rw [hkinds, if_neg hl]
        · rw [hkinds₂, if_neg hl]
  · rw [if_neg hthere, if_neg hthere]
    exact .stay h _

end

/-! ## One after the other -/

section

variable {ι ρ : Type}

/-- Does one thing after the other. -/
def runAll (act : ι → FileSystem → ρ × FileSystem) : List ι → FileSystem → List ρ × FileSystem
  | [], fs => ([], fs)
  | i :: is, fs => ((act i fs).1 :: (runAll act is (act i fs).2).1, (runAll act is (act i fs).2).2)

theorem Confined.beside {act : FileSystem → ρ × FileSystem} (h : Confined out name act)
    (fs : FileSystem) : Beside out [name] fs (act fs).2 :=
  (h [] fs fs (by simp) (.refl _ _ _)).frame

variable {act : ι → FileSystem → ρ × FileSystem} {key : ι → String} {is is' : List ι}
  (h : ∀ i, Confined out (key i) (act i))

include h

theorem beside_runAll (is : List ι) (fs : FileSystem) :
    Beside out (is.map key) fs (runAll act is fs).2 := by
  induction is generalizing fs with
  | nil => exact .refl _ _ _
  | cons i is ih =>
      refine (((h i).beside fs).mono ?_).trans ((ih (act i fs).2).mono ?_)
      · simp
      · simp

/-- Every result is what comes of doing the one thing alone. -/
theorem result_runAll (hkeys : (is.map key).Nodup) (fs : FileSystem) :
    (runAll act is fs).1 = is.map fun i => (act i fs).1 := by
  induction is generalizing fs with
  | nil => rfl
  | cons i is ih =>
      obtain ⟨hi, his⟩ := List.nodup_cons.1 hkeys
      rw [runAll, ih his, List.map_cons]
      refine congrArg ((act i fs).1 :: ·) (List.map_congr_left fun j hj => ?_)
      have hij : key j ∉ [key i] := by
        rw [List.mem_singleton]
        exact fun heq => hi (heq ▸ List.mem_map_of_mem hj)
      exact (h j [key i] fs _ hij ((h i).beside fs)).result

/-- What is left in a directory is what is left by doing the one thing alone. -/
theorem inside_runAll (hkeys : (is.map key).Nodup) {i : ι} (hi : i ∈ is)
    (hl : fs.place out ++ [key i] <+: l) :
    (runAll act is fs).2.kindAt l = (act i fs).2.kindAt l := by
  induction is generalizing fs with
  | nil => cases hi
  | cons j is ih =>
      obtain ⟨hj, his⟩ := List.nodup_cons.1 hkeys
      have hfirst := (h j).beside fs
      have hl' : (act j fs).2.place out ++ [key i] <+: l := by
        rwa [place_eq_of_working hfirst.working]
      rw [runAll]
      rcases List.mem_cons.1 hi with rfl | hi
      · exact (beside_runAll h _ _).inside hj hl'
      · have hij : key i ∉ [key j] := by
          rw [List.mem_singleton]
          exact fun heq => hj (heq ▸ List.mem_map_of_mem hi)
        have halike := h i [key j] fs _ hij hfirst
        rw [ih his hi hl']
        refine halike.beside.inside hij ?_
        rwa [place_eq_of_working halike.frame.working]

/-- On the way there are the directories that were there and those that one of the things makes. -/
theorem way_runAll (hkeys : (is.map key).Nodup) (hl : fs.OnWay out l) :
    (runAll act is fs).2.kindAt l = some .directory ↔
      fs.kindAt l = some .directory ∨ ∃ i ∈ is, (act i fs).2.kindAt l = some .directory := by
  induction is generalizing fs with
  | nil => simp [runAll]
  | cons i is ih =>
      obtain ⟨hi, his⟩ := List.nodup_cons.1 hkeys
      have hfirst := (h i).beside fs
      have hlater {j : ι} (hj : j ∈ is) : (act j (act i fs).2).2.kindAt l = some .directory ↔
          (act j fs).2.kindAt l = some .directory ∨ (act i fs).2.kindAt l = some .directory := by
        have hij : key j ∉ [key i] := by
          rw [List.mem_singleton]
          exact fun heq => hi (heq ▸ List.mem_map_of_mem hj)
        have halike := h j [key i] fs _ hij hfirst
        refine ⟨halike.way l hl, ?_⟩
        rintro (hmade | hmade)
        · exact halike.beside.directory ((onWay_congr halike.frame.working).2 hl) hmade
        · exact ((h j).beside _).directory ((onWay_congr hfirst.working).2 hl) hmade
      rw [runAll, ih his ((onWay_congr hfirst.working).2 hl)]
      constructor
      · rintro (hmade | ⟨j, hj, hmade⟩)
        · exact .inr ⟨i, List.mem_cons_self, hmade⟩
        · rcases (hlater hj).1 hmade with hmade | hmade
          · exact .inr ⟨j, List.mem_cons_of_mem i hj, hmade⟩
          · exact .inr ⟨i, List.mem_cons_self, hmade⟩
      · rintro (hthere | ⟨j, hj, hmade⟩)
        · exact .inl (hfirst.directory hl hthere)
        · rcases List.mem_cons.1 hj with rfl | hj
          · exact .inl hmade
          · exact .inr ⟨j, hj, (hlater hj).2 (.inl hmade)⟩

/-- The order makes no difference. -/
theorem sameFiles_runAll (hkeys : (is.map key).Nodup) (hperm : is'.Perm is) (fs : FileSystem) :
    SameFiles (runAll act is fs).2 (runAll act is' fs).2 := by
  have hkeys' : (is'.map key).Nodup := (hperm.map key).nodup_iff.2 hkeys
  have hbeside := beside_runAll h is fs
  have hbeside' := beside_runAll h is' fs
  refine ⟨hbeside'.working.trans hbeside.working.symm, fun l => ?_⟩
  by_cases hinside : ∃ i ∈ is, fs.place out ++ [key i] <+: l
  · obtain ⟨i, hi, hl⟩ := hinside
    rw [inside_runAll h hkeys hi hl, inside_runAll h hkeys' (hperm.mem_iff.2 hi) hl]
  · have hout : ∀ name ∈ is.map key, ¬ fs.place out ++ [name] <+: l := by
      rw [List.forall_mem_map]
      exact fun i hi hl => hinside ⟨i, hi, hl⟩
    have hout' : ∀ name ∈ is'.map key, ¬ fs.place out ++ [name] <+: l := fun name hname =>
      hout name ((hperm.map key).mem_iff.1 hname)
    have hway (hl : fs.OnWay out l) : (runAll act is' fs).2.kindAt l = some .directory ↔
        (runAll act is fs).2.kindAt l = some .directory := by
      rw [way_runAll h hkeys hl, way_runAll h hkeys' hl]
      simp only [hperm.mem_iff]
    rcases hbeside.kindAt l hout with hsame | ⟨hl, -, hmade⟩
    · rcases hbeside'.kindAt l hout' with hsame' | ⟨hl', -, hmade'⟩
      · rw [hsame, hsame']
      · rw [hmade', (hway hl').1 hmade']
    · rw [hmade, (hway hl).2 hmade]

end

end Bindery.FileSystem
