import Mathlib.Data.List.Basic
import TreeQuery.Settings.Basic

/-!
# Checklists and their answers

The answer to a checklist is looked for under the stem of the checklist. The stem is put behind the
directory of answers and then gets an extension, and whatever looks like an extension at its own
end is lost on the way. So the answer is named after the stem of the stem.

Results:
* `Path.splitName?_append`, `Path.splitExtension_append`: taking apart what was put together.
* `Path.withExtension_join_of_no_dot`, `Path.withExtension_join_append`: what another extension
  makes of a path, without an old one and with one.
* `Settings.answerFor?_cuts_stem`: which answer a checklist is paired with, and when two checklists
  share one.
-/

namespace TreeQuery

namespace Path

/-! ## The last component -/

/-- What can stand in front of the last component of a path. -/
def IsFront (dir : List Char) : Prop :=
  dir = [] ∨ ∃ d, dir = d ++ ['/']

/-- Reading backwards up to a character passes over a text without it. -/
theorem takeWhile_reverse_append {c : Char} {xs : List Char} (h : c ∉ xs) (ys : List Char) :
    (xs.reverse ++ ys).takeWhile (fun d => d != c) =
      xs.reverse ++ ys.takeWhile fun d => d != c := by
  refine List.takeWhile_append_of_pos fun d hd => ?_
  rw [bne_iff_ne]
  rintro rfl
  exact h (List.mem_reverse.1 hd)

theorem takeWhile_reverse_front {dir : List Char} (h : IsFront dir) :
    dir.reverse.takeWhile (fun c => c != '/') = [] := by
  rcases h with rfl | ⟨d, rfl⟩
  · rfl
  · simp

theorem dropEmptyBack_eq_self {c : Char} {cs : List Char} (hc : c ≠ '/')
    (hdot : c = '.' → cs.head? ≠ some '/') : dropEmptyBack (c :: cs) = c :: cs := by
  unfold dropEmptyBack
  split
  · rename_i heq
    exact absurd (List.cons.inj heq).1 hc
  · rename_i heq
    obtain ⟨rfl, rfl⟩ := List.cons.inj heq
    exact absurd rfl (hdot rfl)
  · rfl

/-- A component stays when the slashes and single dots behind it are dropped. -/
theorem dropEmptyBack_append {name : List Char} (hnil : name ≠ []) (hdot : name ≠ ['.'])
    (hslash : '/' ∉ name) (dir : List Char) :
    dropEmptyBack (dir ++ name).reverse = name.reverse ++ dir.reverse := by
  rw [List.reverse_append]
  have hmem : ∀ c ∈ name.reverse, c ≠ '/' := by
    rintro c hc rfl
    exact hslash (List.mem_reverse.1 hc)
  match hback : name.reverse with
  | [] => exact absurd (List.reverse_eq_nil_iff.1 hback) hnil
  | [c] =>
    rw [hback] at hmem
    refine dropEmptyBack_eq_self (hmem c (by simp)) ?_
    rintro rfl
    exact absurd (List.reverse_eq_iff.1 hback) hdot
  | c :: d :: cs =>
    rw [hback] at hmem
    refine dropEmptyBack_eq_self (hmem c (by simp)) fun _ => ?_
    simpa using hmem d (by simp)

/-- A path is cut in front of its last component, unless that is two dots. -/
theorem splitName?_append {dir name : List Char} (hdir : IsFront dir) (hnil : name ≠ [])
    (hdot : name ≠ ['.']) (hslash : '/' ∉ name) :
    splitName? (dir ++ name) = if name = ['.', '.'] then none else some (dir, name) := by
  have htake : (name.reverse ++ dir.reverse).takeWhile (fun c => c != '/') = name.reverse := by
    rw [takeWhile_reverse_append hslash, takeWhile_reverse_front hdir, List.append_nil]
  rw [splitName?, dropEmptyBack_append hnil hdot hslash, htake, List.reverse_reverse]
  simp [hnil, hdot]

/-! ## Extensions -/

/-- A name is cut at a dot behind which there is no other. -/
theorem splitExtension_append {base extension : List Char} (hbase : base ≠ [])
    (hextension : '.' ∉ extension) :
    splitExtension (base ++ '.' :: extension) = (base, some extension) := by
  have hback : (base ++ '.' :: extension).reverse = extension.reverse ++ '.' :: base.reverse := by
    simp
  have htake : (extension.reverse ++ '.' :: base.reverse).takeWhile (fun c => c != '.') =
      extension.reverse := by
    rw [takeWhile_reverse_append hextension]
    simp
  rw [splitExtension, hback, htake, List.reverse_reverse, ← List.length_reverse, List.drop_left]
  simp [hbase]

/-- A name whose only dot, if any, is at the front has no extension. -/
theorem splitExtension_of_no_dot {name : List Char} (h : '.' ∉ name.tail) :
    splitExtension name = (name, none) := by
  cases name with
  | nil => rfl
  | cons c cs =>
    rw [List.tail_cons] at h
    rw [splitExtension, List.reverse_cons, takeWhile_reverse_append h]
    by_cases hc : c = '.'
    · simp [hc]
    · have hdrop : (cs.reverse ++ [c]).drop (cs.length + 1) = [] :=
        List.drop_eq_nil_iff.2 (by simp)
      simp [hc, hdrop]

/-- Every other name has one, behind its last dot. -/
theorem exists_last_dot {name : List Char} (h : '.' ∈ name.tail) :
    ∃ base extension, name = base ++ '.' :: extension ∧ base ≠ [] ∧ '.' ∉ extension := by
  cases name with
  | nil => cases h
  | cons c cs =>
    obtain ⟨back, front, heq, hback⟩ := List.eq_append_cons_of_mem (List.mem_reverse.2 h)
    refine ⟨c :: front.reverse, back.reverse, ?_, List.cons_ne_nil _ _, by simpa using hback⟩
    have hcs : cs = (back ++ '.' :: front).reverse := by
      rw [← heq, List.tail_cons, List.reverse_reverse]
    rw [hcs]
    simp

/-! ## Names in directories -/

/-- The text of a directory in front of a name in it. -/
def front (dir : String) : List Char :=
  if dir.isEmpty ∨ dir.endsWith "/" then dir.toList else dir.toList ++ ['/']

theorem toList_join (dir name : String) : (join dir name).toList = front dir ++ name.toList := by
  unfold join front
  split <;> simp

theorem isFront_front (dir : String) : IsFront (front dir) := by
  unfold front
  split
  · rename_i h
    rcases h with h | h
    · exact .inl (String.toList_eq_nil_iff.2 (String.isEmpty_iff.1 h))
    · rw [String.endsWith_eq_endsWith_toSlice, String.Slice.endsWith_string_iff,
        String.copy_toSlice] at h
      obtain ⟨d, hd⟩ := h
      exact .inr ⟨d, hd.symm⟩
  · exact .inr ⟨dir.toList, rfl⟩

theorem join_inj {dir name name' : String} : join dir name = join dir name' ↔ name = name' := by
  rw [← String.toList_inj, toList_join, toList_join, List.append_cancel_left_eq, String.toList_inj]

/-- A text that can be the stem of a file and also the name of one. -/
structure IsStem (stem : String) : Prop where
  ne_empty : stem ≠ ""
  ne_dot : stem ≠ "."
  ne_dots : stem ≠ ".."
  no_slash : '/' ∉ stem.toList

variable {dir stem : String}

theorem IsStem.toList_ne_nil (h : IsStem stem) : stem.toList ≠ [] :=
  fun heq => h.ne_empty (String.toList_eq_nil_iff.1 heq)

theorem IsStem.splitName?_append (h : IsStem stem) {front : List Char} (hfront : IsFront front) :
    splitName? (front ++ stem.toList) = some (front, stem.toList) := by
  have hdot : stem.toList ≠ ['.'] := fun heq => h.ne_dot (String.toList_inj.1 heq)
  have hdots : stem.toList ≠ ['.', '.'] := fun heq => h.ne_dots (String.toList_inj.1 heq)
  rw [Path.splitName?_append hfront h.toList_ne_nil hdot h.no_slash, if_neg hdots]

/-- A file has the stem that it was named after. -/
theorem stem?_join {extension : String} {c : Char} {cs : List Char} (h : IsStem stem)
    (hextension : extension.toList = '.' :: c :: cs) (hdot : '.' ∉ c :: cs)
    (hslash : '/' ∉ c :: cs) : stem? (join dir (stem ++ extension)) = some stem := by
  have hname : (stem ++ extension).toList = stem.toList ++ '.' :: c :: cs := by
    rw [String.toList_append, hextension]
  -- the name is longer than the names that do not count
  have hlong : ∀ short : String, short.toList.length < 3 → stem ++ extension ≠ short := by
    rintro short hshort rfl
    have hpos := List.length_pos_iff.2 h.toList_ne_nil
    rw [hname, List.length_append, List.length_cons, List.length_cons] at hshort
    omega
  have hfile : IsStem (stem ++ extension) := by
    refine ⟨hlong _ (by decide), hlong _ (by decide), hlong _ (by decide), ?_⟩
    rw [hname, List.mem_append, List.mem_cons, not_or, not_or]
    exact ⟨h.no_slash, by decide, hslash⟩
  rw [stem?, toList_join, hfile.splitName?_append (isFront_front dir), hname, Option.map_some]
  simp only [splitExtension_append h.toList_ne_nil hdot, String.ofList_toList]

/-! ## Another extension -/

theorem stem?_of_isStem (h : IsStem stem) :
    stem? stem = some (String.ofList (splitExtension stem.toList).1) := by
  rw [stem?, ← List.nil_append stem.toList, h.splitName?_append (.inl rfl), Option.map_some]
  rfl

/-- What is left of a path before it gets its extension: the text without the old extension. -/
theorem withExtension_join {kept old : List Char} (h : IsStem stem)
    (hstem : stem.toList = kept ++ old)
    (hold : ((splitExtension stem.toList).2.getD []).length = old.length) (extension : String) :
    withExtension (join dir stem) extension =
      String.ofList (setExtension (front dir ++ kept) extension.toList) := by
  have hextension : ((extension? (join dir stem)).getD "").length = old.length := by
    rw [extension?, toList_join, h.splitName?_append (isFront_front dir), ← hold]
    show (((splitExtension stem.toList).2.map String.ofList).getD "").length = _
    cases (splitExtension stem.toList).2 <;> simp
  have hkept : (join dir stem).toList.take ((join dir stem).length - old.length) =
      front dir ++ kept := by
    rw [← String.length_toList, toList_join, hstem, ← List.append_assoc, List.length_append,
      Nat.add_sub_cancel, List.take_left]
  rw [withExtension, hextension, hkept]

/-- A name without an extension gets one. -/
theorem withExtension_join_of_no_dot (h : IsStem stem) (hdot : '.' ∉ stem.toList.tail)
    (extension : String) :
    withExtension (join dir stem) extension = join dir (stem ++ "." ++ extension) := by
  have hsplit := splitExtension_of_no_dot hdot
  rw [withExtension_join h (List.append_nil _).symm (by rw [hsplit]; rfl), setExtension,
    h.splitName?_append (isFront_front dir), ← String.toList_inj, toList_join]
  simp [hsplit]

/-- A name with an extension loses it. If nothing but a dot is left in front of it, the name is
    taken for the directory above. -/
theorem withExtension_join_append {base old : List Char} (h : IsStem stem)
    (hstem : stem.toList = base ++ '.' :: old) (hbase : base ≠ []) (hold : '.' ∉ old)
    (extension : String) :
    withExtension (join dir stem) extension =
      join dir (if base = ['.'] then ".." else String.ofList base ++ "." ++ extension) := by
  have hsplit : splitExtension stem.toList = (base, some old) := by
    rw [hstem, splitExtension_append hbase hold]
  have hkept : stem.toList = (base ++ ['.']) ++ old := by
    rw [hstem, List.append_assoc, List.singleton_append]
  have hslash : '/' ∉ base ++ ['.'] := fun hmem =>
    h.no_slash (hkept ▸ List.mem_append_left old hmem)
  have hdot : base ++ ['.'] ≠ ['.'] := by simpa using hbase
  have hdots : base ++ ['.'] = ['.', '.'] ↔ base = ['.'] := by
    rw [show (['.', '.'] : List Char) = ['.'] ++ ['.'] from rfl, List.append_left_inj]
  rw [withExtension_join h hkept (by rw [hsplit]; rfl), setExtension,
    Path.splitName?_append (isFront_front dir) (by simp) hdot hslash, ← String.toList_inj,
    toList_join]
  by_cases hbasedot : base = ['.']
  · simp [hbasedot]
  · simp [hdots, hbasedot, splitExtension_append hbase List.not_mem_nil]

/-- A name gets its extension behind its own stem. -/
theorem exists_withExtension_join (h : IsStem stem) (dir extension : String) :
    ∃ core, stem? stem = some core ∧ (core = stem ↔ '.' ∉ stem.toList.tail) ∧
      withExtension (join dir stem) extension =
        join dir (if core = "." then ".." else core ++ "." ++ extension) := by
  by_cases hdot : '.' ∈ stem.toList.tail
  · obtain ⟨base, old, hstem, hbase, hold⟩ := exists_last_dot hdot
    refine ⟨String.ofList base, ?_, ?_, ?_⟩
    · rw [stem?_of_isStem h, hstem, splitExtension_append hbase hold]
    · refine iff_of_false (fun heq => ?_) (fun hno => hno hdot)
      rw [← String.toList_inj, String.toList_ofList, hstem] at heq
      simp at heq
    · have hbasedot : String.ofList base = "." ↔ base = ['.'] := by
        rw [← String.toList_inj, String.toList_ofList]
        rfl
      rw [withExtension_join_append h hstem hbase hold]
      simp only [hbasedot]
  · refine ⟨stem, ?_, iff_of_true rfl hdot, ?_⟩
    · rw [stem?_of_isStem h, splitExtension_of_no_dot hdot, String.ofList_toList]
    · rw [withExtension_join_of_no_dot h hdot, if_neg h.ne_dot]

end Path

/-! ## Pairing -/

namespace Settings

/-- The path of a checklist with a given stem. -/
def checklistPath (dir stem : String) : String :=
  Path.join dir (stem ++ ".toml")

/-- The name of an answer with a given stem. A stem that is a single dot gets no extension. -/
def answerName (stem : String) : String :=
  if stem = "." then ".." else stem ++ ".php"

theorem answerName_inj {stem other : String} :
    answerName stem = answerName other ↔ stem = other := by
  -- the path of the directory above is too short to be the name of another answer
  have hne : ∀ name : String, name ++ ".php" ≠ ".." := by
    intro name heq
    have hlength := congrArg (fun s : String => s.toList.length) heq
    simp at hlength
  constructor
  · intro h
    unfold answerName at h
    split at h <;> split at h
    · rename_i hstem hother
      rw [hstem, hother]
    · exact absurd h.symm (hne other)
    · exact absurd h (hne stem)
    · exact String.append_left_inj _ |>.1 h
  · rintro rfl
    rfl

variable {stem : String}

theorem stem?_checklistPath (h : Path.IsStem stem) (dir : String) :
    Path.stem? (checklistPath dir stem) = some stem :=
  Path.stem?_join h rfl (by decide) (by decide)

/-- A checklist is paired with the answer that is named after the stem of its stem. -/
theorem exists_answerFor? (s : Settings) (h : Path.IsStem stem) :
    ∃ core, Path.stem? stem = some core ∧ (core = stem ↔ '.' ∉ stem.toList.tail) ∧
      ∀ dir, s.answerFor? (checklistPath dir stem) =
        some (Path.join s.answerDir (answerName core)) := by
  obtain ⟨core, hcore, hiff, hpath⟩ := Path.exists_withExtension_join h s.answerDir "php"
  refine ⟨core, hcore, hiff, fun dir => ?_⟩
  rw [answerFor?, stem?_checklistPath h, Option.map_some, hpath, String.append_assoc]
  rfl

/-- The answer to a checklist is named after the stem of its stem. That is the stem of the
    checklist exactly if it has no dot but one at the front, and then the answer is the one with
    the stem of the checklist. Two checklists have the same answer exactly if the stems of their
    stems are the same. -/
theorem answerFor?_cuts_stem (s : Settings) (dir stem other : String) (h : Path.IsStem stem)
    (hother : Path.IsStem other) :
    Path.stem? (checklistPath dir stem) = some stem ∧
    (∃ core, Path.stem? stem = some core ∧ (core = stem ↔ '.' ∉ stem.toList.tail) ∧
      s.answerFor? (checklistPath dir stem) =
        some (Path.join s.answerDir (if core = "." then ".." else core ++ ".php"))) ∧
    (s.answerFor? (checklistPath dir stem) = some (Path.join s.answerDir (stem ++ ".php")) ↔
      '.' ∉ stem.toList.tail) ∧
    Path.stem? (Path.join s.answerDir (stem ++ ".php")) = some stem ∧
    (s.answerFor? (checklistPath dir stem) = s.answerFor? (checklistPath dir other) ↔
      Path.stem? stem = Path.stem? other) := by
  obtain ⟨core, hcore, hiff, hanswer⟩ := s.exists_answerFor? h
  obtain ⟨core', hcore', -, hanswer'⟩ := s.exists_answerFor? hother
  have hself : answerName stem = stem ++ ".php" := if_neg h.ne_dot
  refine ⟨stem?_checklistPath h dir, ⟨core, hcore, hiff, hanswer dir⟩, ?_, ?_, ?_⟩
  · rw [hanswer, Option.some_inj, Path.join_inj, ← hself, answerName_inj, hiff]
  · exact Path.stem?_join h rfl (by decide) (by decide)
  · rw [hanswer, hanswer', hcore, hcore', Option.some_inj, Option.some_inj, Path.join_inj,
      answerName_inj]

/-- The checklists `a.b` and `.a` in one directory: the first one has not the answer with its stem,
    the second one has. -/
theorem answerFor?_cuts_stem_dotted :
    Path.IsStem "a.b" ∧ Path.IsStem ".a" ∧
      standard.answerFor? (checklistPath "tests" "a.b") ≠
        some (Path.join "answers" "a.b.php") ∧
      standard.answerFor? (checklistPath "tests" ".a") = some (Path.join "answers" ".a.php") := by
  have hdotted : Path.IsStem "a.b" := ⟨by decide, by decide, by decide, by decide⟩
  have hhidden : Path.IsStem ".a" := ⟨by decide, by decide, by decide, by decide⟩
  refine ⟨hdotted, hhidden, fun heq => ?_, ?_⟩
  · exact (answerFor?_cuts_stem standard "tests" "a.b" ".a" hdotted hhidden).2.2.1.1 heq (by decide)
  · exact (answerFor?_cuts_stem standard "tests" ".a" "a.b" hhidden hdotted).2.2.1.2 (by decide)

/-- The checklists `a.b` and `a.c` have different stems and the same answer. -/
theorem answerFor?_shared_dotted :
    Path.stem? "tests/a.b.toml" = some "a.b" ∧ Path.stem? "tests/a.c.toml" = some "a.c" ∧
      standard.answerFor? "tests/a.b.toml" = some "answers/a.php" ∧
      standard.answerFor? "tests/a.c.toml" = some "answers/a.php" := by
  decide +kernel

end Settings

end TreeQuery
