import ReleaseCandidates.Proofs.FileSystem.Replaced
import ReleaseCandidates.Proofs.Text.Cutting

set_option autoImplicit false

/-! # A file lies in a directory

The directory that holds a file is found on the text of the path, by cutting off the last name. That
is where a walk along the path has come by: whoever gets to the end of a path has been, with the
names before, at directories (`walkFrom_split`). So where a path names a file, the path that is cut
out of it names a directory (`isDirectory_workshop`), whatever links lie on the way. -/

namespace ReleaseCandidates.FileSystem

variable {fs : FileSystem} {path : String}

/-! ## Stations of a walk -/

/-- A walk that goes on behind some names has come to a directory with them. What holds of a place
from which the remaining names lead on holds of this directory. -/
theorem walkWith_split {through : Bool} {here k : Location} {steps more : List String}
    {jump jump' : Location → String → List String → Except OsError Location}
    {LeadsOn : Location → Prop} (hmore : more ≠ [])
    (hjump : ∀ here target rest, jump here target (rest ++ more) = .ok k →
      ∃ d, jump' here target rest = .ok d ∧ fs.entryAt d = some .directory ∧ LeadsOn d)
    (hend : ∀ d, walkWith jump fs through d more = .ok k → LeadsOn d)
    (hw : walkWith jump fs through here (steps ++ more) = .ok k) :
    ∃ d, walkWith jump' fs true here steps = .ok d ∧ fs.entryAt d = some .directory ∧
      LeadsOn d := by
  simp only [walkWith_eq_ok_iff] at hend hw ⊢
  induction steps generalizing here with
  | nil =>
    refine ⟨here, .stay here, ?_, hend here hw⟩
    obtain ⟨name, rest, rfl⟩ := List.exists_cons_of_ne_nil hmore
    exact directory_of_walkWith hw.walkWith
  | cons name rest ih =>
    have hleft : rest ++ more ≠ [] := List.append_ne_nil_of_right_ne_nil rest hmore
    rw [List.cons_append] at hw
    generalize hnames : rest ++ more = left at hw hleft
    cases hw with
    | idle hhere hname hrest =>
      obtain ⟨d, hd, hthere⟩ := ih (hnames ▸ hrest)
      exact ⟨d, .idle hhere hname hd, hthere⟩
    | up hhere hrest =>
      obtain ⟨d, hd, hthere⟩ := ih (hnames ▸ hrest)
      exact ⟨d, .up hhere hd, hthere⟩
    | enter hhere hname hnext hrest =>
      obtain ⟨d, hd, hthere⟩ := ih (hnames ▸ hrest)
      exact ⟨d, .enter hhere hname hnext hd, hthere⟩
    | arrive => exact absurd rfl hleft
    | link => exact absurd rfl hleft
    | follow hhere hname hnext _ hj =>
      -- there are names to go, so the link is followed, here and there
      obtain ⟨d, hd, hthere⟩ := hjump _ _ _ (hnames ▸ hj)
      exact ⟨d, .follow hhere hname hnext (.inr rfl) hd, hthere⟩

theorem walkFrom_split {through : Bool} {links : Nat} {here k : Location}
    {steps more : List String} (hmore : more ≠ [])
    (hw : fs.walkFrom through links here (steps ++ more) = .ok k) :
    ∃ d, fs.walkFrom true links here steps = .ok d ∧ fs.entryAt d = some .directory ∧
      ∃ left, fs.walkFrom through left d more = .ok k := by
  induction links generalizing here steps with
  | zero =>
    refine walkWith_split hmore ?_ (fun d hd => ⟨0, hd⟩) hw
    intro here target rest hj
    cases hj
  | succ links ih =>
    refine walkWith_split hmore ?_ (fun d hd => ⟨links + 1, hd⟩) hw
    intro here target rest hj
    rw [← List.append_assoc] at hj
    exact ih hj

/-- An empty name and a single dot lead nowhere. -/
theorem walkFrom_idle {through : Bool} {links : Nat} {d k : Location} {name : String}
    (hidle : name = "" ∨ name = ".") (hw : fs.walkFrom through links d [name] = .ok k) : k = d := by
  have hstep (jump : Location → String → List String → Except OsError Location)
      (h : walkWith jump fs through d [name] = .ok k) : k = d := by
    simp only [walkWith, directory_of_walkWith h, if_pos hidle] at h
    exact (Except.ok.inj h).symm
  cases links with
  | zero => exact hstep _ hw
  | succ links => exact hstep _ hw

/-! ## The path that is cut off -/

theorem dropIdleEnd_ne_nil {cs : List Char} (h : cs ≠ []) : dropIdleEnd cs ≠ [] := by
  fun_induction dropIdleEnd cs with
  | case1 c rest ih => exact ih (by simp)
  | case2 c rest ih => exact ih (by simp)
  | case3 => simp
  | case4 cs => exact h

/-- What is dropped at the end of a path goes back to a slash. -/
theorem dropIdleEnd_cases (cs : List Char) :
    dropIdleEnd cs = ['/'] ∨ dropIdleEnd cs = cs ∨ ∃ idle, cs = idle ++ '/' :: dropIdleEnd cs := by
  fun_induction dropIdleEnd cs with
  | case1 c rest ih =>
    rcases ih with hroot | hall | ⟨idle, hidle⟩
    · exact .inl hroot
    · exact .inr (.inr ⟨[], by rw [hall]; rfl⟩)
    · exact .inr (.inr ⟨'/' :: idle, by rw [List.cons_append, ← hidle]⟩)
  | case2 c rest ih =>
    rcases ih with hroot | hall | ⟨idle, hidle⟩
    · exact .inl hroot
    · exact .inr (.inr ⟨['.'], by rw [hall]; rfl⟩)
    · exact .inr (.inr ⟨'.' :: '/' :: idle, by rw [List.cons_append, List.cons_append, ← hidle]⟩)
  | case3 => exact .inl rfl
  | case4 cs => exact .inr (.inl rfl)

/-- Where the last name is a proper one, nothing is dropped behind it. -/
theorem dropIdleEnd_of_proper {last rest : List Char} (hslash : '/' ∉ last) (hne : last ≠ [])
    (hdot : last ≠ ['.']) : dropIdleEnd (last.reverse ++ rest) = last.reverse ++ rest := by
  have hreverse : '/' ∉ last.reverse := by rwa [List.mem_reverse]
  rw [← List.reverse_reverse last] at hne hdot
  generalize last.reverse = cs at *
  rcases cs with _ | ⟨c, cs⟩
  · exact absurd rfl hne
  obtain ⟨hc, hcs⟩ := not_or.1 (mt List.mem_cons.2 hreverse)
  rcases cs with _ | ⟨c', cs⟩
  · have hcdot : c ≠ '.' := fun h => hdot (by rw [h]; rfl)
    rw [List.singleton_append, dropIdleEnd]
    · exact fun _ _ h => hc (List.cons.inj h).1.symm
    · exact fun _ _ h => hcdot (List.cons.inj h).1
    · exact fun h => hcdot (List.cons.inj h).1
  · obtain ⟨hc', -⟩ := not_or.1 (mt List.mem_cons.2 hcs)
    rw [List.cons_append, List.cons_append, dropIdleEnd]
    · exact fun _ _ h => hc (List.cons.inj h).1.symm
    · exact fun _ _ h => hc' (List.cons.inj (List.cons.inj h).2).1.symm
    · exact fun h => hc' (List.cons.inj (List.cons.inj h).2).1.symm

/-- A proper last name is cut off. -/
theorem parent?_of_proper {front last : List Char} (hpath : path.toList = front ++ last)
    (hslash : '/' ∉ last) (hne : last ≠ []) (hdot : last ≠ ['.'])
    (hfront : front.reverse.dropWhile (· ≠ '/') = front.reverse) :
    parent? path = some (String.ofList (dropIdleEnd front.reverse).reverse) := by
  have hlast : '/' ∉ last.reverse := by rwa [List.mem_reverse]
  have hdrop : (last.reverse ++ front.reverse).dropWhile (· ≠ '/') = front.reverse := by
    rw [List.dropWhile_append_of_pos (Text.ne_of_not_mem hlast), hfront]
  obtain ⟨c, cs, hcs⟩ := List.exists_cons_of_ne_nil (List.reverse_ne_nil_iff.2 hne)
  have hc : c ≠ '/' := by
    rintro rfl
    exact hlast (by rw [hcs]; exact List.mem_cons_self)
  rw [parent?, hpath, List.reverse_append, dropIdleEnd_of_proper hslash hne hdot]
  rw [hcs] at hdrop ⊢
  split
  · rename_i h
    cases h
  · rename_i h
    exact absurd (List.cons.inj h).1 hc
  · rw [hdrop]

/-- The directory of a file is what the path names before a slash, or the root. -/
theorem workshop_of_append {before last : List Char} (hpath : path.toList = before ++ '/' :: last)
    (hslash : '/' ∉ last) (hne : last ≠ []) (hdot : last ≠ ['.']) :
    workshop path = "/" ∨ workshop path ≠ "" ∧
      ∃ rest, path.toList = (workshop path).toList ++ '/' :: rest := by
  have hfront : path.toList = (before ++ ['/']) ++ last := by
    rw [hpath, List.append_assoc, List.singleton_append]
  have hparent := parent?_of_proper hfront hslash hne hdot (by simp)
  rw [List.reverse_append, List.reverse_singleton, List.singleton_append] at hparent
  by_cases hbefore : before = []
  · subst hbefore
    exact .inl (by rw [workshop, hparent]; rfl)
  obtain ⟨c, cs, hcs⟩ := List.exists_cons_of_ne_nil (List.reverse_ne_nil_iff.2 hbefore)
  have hidle : dropIdleEnd ('/' :: before.reverse) = dropIdleEnd before.reverse := by
    rw [hcs, dropIdleEnd]
  have hsome : dropIdleEnd before.reverse ≠ [] :=
    dropIdleEnd_ne_nil (List.reverse_ne_nil_iff.2 hbefore)
  rw [hidle] at hparent
  have hworkshop : workshop path = String.ofList (dropIdleEnd before.reverse).reverse := by
    simp [workshop, hparent, hsome]
  rw [hworkshop, String.toList_ofList]
  rcases dropIdleEnd_cases before.reverse with hroot | hall | ⟨idle, hcut⟩
  · exact .inl (by rw [hroot]; rfl)
  · refine .inr ⟨by simp [hsome], last, ?_⟩
    rw [hall, List.reverse_reverse, hpath]
  · refine .inr ⟨by simp [hsome], idle.reverse ++ '/' :: last, ?_⟩
    have hback := congrArg List.reverse hcut
    rw [List.reverse_reverse, List.reverse_append, List.reverse_cons] at hback
    calc path.toList = before ++ '/' :: last := hpath
      _ = (dropIdleEnd before.reverse).reverse ++ ['/'] ++ idle.reverse ++ '/' :: last :=
        congrArg (· ++ '/' :: last) hback
      _ = (dropIdleEnd before.reverse).reverse ++ '/' :: (idle.reverse ++ '/' :: last) := by simp

/-! ## The directory of a file -/

theorem isDirectory_root (fs : FileSystem) : fs.isDirectory "/" = true := by
  have hwalk : fs.walk true "/" = .ok [] := by
    show fs.walkFrom true maxLinks [] ["", ""] = .ok []
    rfl
  exact isDirectory_iff.2 ⟨[], hwalk, rfl⟩

theorem isDirectory_here (h : fs.entryAt fs.workingDirectory = some .directory) :
    fs.isDirectory "." = true := by
  have hwalk : fs.walk true "." = .ok fs.workingDirectory := by
    show fs.walkFrom true maxLinks fs.workingDirectory ["."] = .ok fs.workingDirectory
    rw [maxLinks, walkFrom, walkWith, h]
    rfl
  exact isDirectory_iff.2 ⟨_, hwalk, h⟩

theorem isDirectory_of_walkFrom {d : Location} (hproblem : pathProblem path = none)
    (hw : fs.walkFrom true maxLinks (origin fs.workingDirectory path) (names path) = .ok d)
    (hd : fs.entryAt d = some .directory) : fs.isDirectory path = true := by
  refine isDirectory_iff.2 ⟨d, ?_, hd⟩
  rw [walk, hproblem]
  exact hw

/-- Nothing is wrong with a part of a path that nothing is wrong with. -/
theorem pathProblem_before {start : String} {rest : List Char}
    (hpath : path.toList = start.toList ++ '/' :: rest) (hne : start ≠ "")
    (h : pathProblem path = none) : pathProblem start = none := by
  have htext : path = start ++ String.ofList ('/' :: rest) := by
    rw [← String.toList_inj, hpath, String.toList_append, String.toList_ofList]
  unfold pathProblem at h ⊢
  split at h
  · cases h
  rename_i hnul
  split at h
  · cases h
  split at h
  · cases h
  rename_i hlong
  have hnul' : ¬ start.toList.contains '\x00' = true := by
    intro hstart
    refine hnul ?_
    rw [List.contains_iff_mem] at hstart ⊢
    rw [hpath]
    exact List.mem_append_left _ hstart
  have hlong' : ¬ start.utf8ByteSize ≥ pathLimit := by
    rw [htext, String.utf8ByteSize_append] at hlong
    omega
  rw [if_neg hnul', if_neg (by simpa using hne), if_neg hlong']

/-- The part of a path before a slash names a directory if the path leads anywhere. -/
theorem isDirectory_before {start : String} {rest : List Char} {k : Location}
    (hpath : path.toList = start.toList ++ '/' :: rest) (hne : start ≠ "")
    (hproblem : pathProblem path = none)
    (hw : fs.walkFrom false maxLinks (origin fs.workingDirectory path) (names path) = .ok k) :
    fs.isDirectory start = true := by
  have horigin : origin fs.workingDirectory path = origin fs.workingDirectory start := by
    obtain ⟨c, cs, hcs⟩ := List.exists_cons_of_ne_nil (mt String.toList_eq_nil_iff.1 hne)
    rw [origin, origin, hpath, hcs]
    rfl
  have hnames : names path = names start ++ (Text.split '/' rest).map String.ofList := by
    rw [names, names, hpath, Text.split_append, List.map_append]
  rw [horigin, hnames] at hw
  have hmore : (Text.split '/' rest).map String.ofList ≠ [] := by
    simpa using Text.split_ne_nil '/' rest
  obtain ⟨d, hd, hdirectory, -⟩ := walkFrom_split hmore hw
  exact isDirectory_of_walkFrom (pathProblem_before hpath hne hproblem) hd hdirectory

/-- What is behind a path that names a file. -/
theorem walkFrom_of_inspect {entry : FileEntry} (h : fs.inspect path = .ok entry) :
    ∃ k, pathProblem path = none ∧
      fs.walkFrom false maxLinks (origin fs.workingDirectory path) (names path) = .ok k ∧
      fs.entryAt k = some entry := by
  obtain ⟨k, hw, hk⟩ := lookAt_eq_ok_iff.1 h
  unfold walk at hw
  cases hproblem : pathProblem path with
  | some error => simp [hproblem] at hw
  | none =>
    simp only [hproblem] at hw
    exact ⟨k, rfl, hw, hk⟩

/-- **A file lies in a directory.** The directory that is found on the text of a path is one, where
the path names a file. -/
theorem isDirectory_workshop {content : FileContent} (h : fs.inspect path = .ok (.file content)) :
    fs.isDirectory (workshop path) = true := by
  obtain ⟨k, hproblem, hw, hk⟩ := walkFrom_of_inspect h
  -- behind an idle name there would be a directory
  have hproper {front : List String} {last : String} (hnames : names path = front ++ [last]) :
      ¬ (last = "" ∨ last = ".") := by
    intro hidle
    rw [hnames] at hw
    obtain ⟨d, -, hd, left, hleft⟩ := walkFrom_split (by simp) hw
    rw [walkFrom_idle hidle hleft, hd] at hk
    cases hk
  by_cases hslash : '/' ∈ path.toList
  · obtain ⟨last, before, hcut, hlast⟩ := List.eq_append_cons_of_mem (List.mem_reverse.2 hslash)
    have hpath : path.toList = before.reverse ++ '/' :: last.reverse := by
      rw [← List.reverse_reverse path.toList, hcut]
      simp
    have hlast : '/' ∉ last.reverse := by rwa [List.mem_reverse]
    have hnames : names path = (Text.split '/' before.reverse).map String.ofList ++
        [String.ofList last.reverse] := by
      rw [names, hpath, Text.split_append, Text.split_of_not_mem hlast, List.map_append]
      rfl
    obtain ⟨hne, hdot⟩ := not_or.1 (hproper hnames)
    rcases workshop_of_append hpath hlast (fun h => hne (by rw [h])) (fun h => hdot (by rw [h]))
      with hroot | ⟨hstart, rest, hrest⟩
    · rw [hroot]
      exact isDirectory_root fs
    · exact isDirectory_before hrest hstart hproblem hw
  · have hnames : names path = [] ++ [path] := by
      rw [names, Text.split_of_not_mem hslash]
      simp
    obtain ⟨hne, hdot⟩ := not_or.1 (hproper hnames)
    have hparent := parent?_of_proper (List.nil_append path.toList).symm hslash
      (mt String.toList_eq_nil_iff.1 hne) (fun h => hdot (String.toList_inj.1 h)) rfl
    have hworkshop : workshop path = "." := by
      rw [workshop, hparent]
      rfl
    have horigin : origin fs.workingDirectory path = fs.workingDirectory := by
      rw [origin, if_neg]
      intro hhead
      exact hslash (List.mem_of_mem_head? hhead)
    rw [horigin, ← List.nil_append (names path)] at hw
    obtain ⟨d, hd, hdirectory, -⟩ := walkFrom_split (by simp [hnames]) hw
    obtain rfl : d = fs.workingDirectory := (Except.ok.inj hd).symm
    rw [hworkshop]
    exact isDirectory_here hdirectory

end ReleaseCandidates.FileSystem
