import AgentHostProtocol.Session.Reducer
import Mathlib.Data.List.Nodup

/-!
# The working directories of a session

The list of working directories has no duplicates, and its first entry is the primary directory.

**What is proved** (`directories_kept`): setting, removing and replacing keep the list free of
duplicates, and a directory that is replaced leaves its place to the replacement, or leaves it empty
if the replacement stands before it (`Replaces`).
-/

namespace AgentHostProtocol.Session

open Library

/-- `state.workingDirectories ?? []`. -/
def directories (state : SessionState Empty) : List URI := state.workingDirectories.getD []

/-- `replacement` stands at the earlier of the two places, and the rest keeps its order. -/
structure Replaces (directory replacement : URI) (old new : List URI) : Prop where
  mem : ∀ u, u ∈ new ↔ u = replacement ∨ u ∈ old ∧ u ≠ directory
  place : new.idxOf replacement = min (old.idxOf directory) (old.idxOf replacement)
  rest : new.filter (fun u => u ≠ directory ∧ u ≠ replacement) =
    old.filter fun u => u ≠ directory ∧ u ≠ replacement

/-! ### Replacing at an index -/

theorem replaceAt_from (l : List URI) (idx : ℕ) (replacement : URI) (k : ℕ) :
    ((((l.zipIdx k).map fun (directory, index) =>
          if index = idx then replacement else directory).zipIdx k).filter fun (directory, index) =>
        index = idx || directory ≠ replacement).map Prod.fst =
      (l.zipIdx k).filterMap fun (directory, i) =>
        if i = idx then some replacement
        else if directory ≠ replacement then some directory
        else none := by
  induction l generalizing k with
  | nil => rfl
  | cons d l ih =>
    have htail := ih (k + 1)
    by_cases hk : k = idx
    · subst hk
      simpa using htail
    · by_cases hd : d = replacement
      · subst hd
        simpa [hk] using htail
      · simpa [hk, hd] using htail

/-- Away from the index the replacement is left out. -/
theorem replaceAt_away (l : List URI) (idx k : ℕ) (replacement : URI) (h : idx < k ∨ k + l.length ≤ idx) :
    ((l.zipIdx k).filterMap fun (directory, i) =>
        if i = idx then some replacement
        else if directory ≠ replacement then some directory
        else none) = l.filter fun u => u ≠ replacement := by
  induction l generalizing k with
  | nil => rfl
  | cons d l ih =>
    rw [List.length_cons] at h
    have hk : k ≠ idx := by omega
    have htail := ih (k + 1) (by omega)
    by_cases hd : d = replacement
    · simpa [hk, hd] using htail
    · simpa [hk, hd] using htail

theorem replaceAt_append (before after : List URI) (directory replacement : URI) :
    replaceAt (before ++ directory :: after) before.length replacement =
      before.filter (fun u => u ≠ replacement) ++
        replacement :: after.filter (fun u => u ≠ replacement) := by
  unfold replaceAt
  rw [replaceAt_from, List.zipIdx_append, List.filterMap_append, List.zipIdx_cons, List.filterMap_cons]
  have hbefore := replaceAt_away before before.length 0 replacement (.inr (by omega))
  have hafter := replaceAt_away after before.length (0 + before.length + 1) replacement
    (.inl (by omega))
  rw [hbefore, hafter]
  simp

/-- The index of the first occurrence. -/
theorem findIdx?_append_cons {before : List URI} {d : URI} (h : d ∉ before) (after : List URI) :
    (before ++ d :: after).findIdx? (fun u => u = d) = some before.length := by
  have hnone : before.findIdx? (fun u => u = d) = none :=
    List.findIdx?_eq_none_iff.mpr fun u hu => by
      simp only [decide_eq_false_iff_not]
      rintro rfl
      exact h hu
  rw [List.findIdx?_append, hnone, List.findIdx?_cons]
  simp

/-! ### The three actions -/

section

variable {before after : List URI} {directory replacement : URI}

/-- The replacement stands before the directory. -/
theorem replaces_before (hnodup : (before ++ directory :: after).Nodup) (hmem : replacement ∈ before) :
    Replaces directory replacement (before ++ directory :: after) (before ++ after) := by
  obtain ⟨hbefore, hafter, hdisjoint⟩ := List.nodup_append.mp hnodup
  have hnotBefore : directory ∉ before := fun h => hdisjoint directory h directory List.mem_cons_self rfl
  have hnotAfter : directory ∉ after := (List.nodup_cons.mp hafter).1
  constructor
  case mem =>
    intro u
    simp only [List.mem_append, List.mem_cons]
    constructor
    · rintro (hu | hu)
      · exact .inr ⟨.inl hu, fun h => hnotBefore (h ▸ hu)⟩
      · exact .inr ⟨.inr (.inr hu), fun h => hnotAfter (h ▸ hu)⟩
    · rintro (rfl | ⟨hu | hu | hu, hne⟩)
      · exact .inl hmem
      · exact .inl hu
      · exact absurd hu hne
      · exact .inr hu
  case place =>
    rw [List.idxOf_append_of_mem hmem, List.idxOf_append_of_mem hmem, List.idxOf_append_of_notMem hnotBefore,
      List.idxOf_cons_self]
    have hlt := List.idxOf_lt_length_of_mem hmem
    omega
  case rest => simp

/-- The replacement is new, or stands after the directory, or is the directory. -/
theorem replaces_after (hnodup : (before ++ directory :: after).Nodup) (hnot : replacement ∉ before) :
    Replaces directory replacement (before ++ directory :: after)
      (before ++ replacement :: after.filter fun u => u ≠ replacement) := by
  obtain ⟨hbefore, hafter, hdisjoint⟩ := List.nodup_append.mp hnodup
  have hnotBefore : directory ∉ before := fun h => hdisjoint directory h directory List.mem_cons_self rfl
  have hnotAfter : directory ∉ after := (List.nodup_cons.mp hafter).1
  constructor
  case mem =>
    intro u
    simp only [List.mem_append, List.mem_cons, List.mem_filter, ne_eq, decide_not, Bool.not_eq_eq_eq_not,
      Bool.not_true, decide_eq_false_iff_not]
    constructor
    · rintro (hu | rfl | ⟨hu, -⟩)
      · exact .inr ⟨.inl hu, fun h => hnotBefore (h ▸ hu)⟩
      · exact .inl rfl
      · exact .inr ⟨.inr (.inr hu), fun h => hnotAfter (h ▸ hu)⟩
    · rintro (rfl | ⟨hu | hu | hu, hne⟩)
      · exact .inr (.inl rfl)
      · exact .inl hu
      · exact absurd hu hne
      · by_cases hr : u = replacement
        · exact .inr (.inl hr)
        · exact .inr (.inr ⟨hu, hr⟩)
  case place =>
    rw [List.idxOf_append_of_notMem hnot, List.idxOf_append_of_notMem hnot,
      List.idxOf_append_of_notMem hnotBefore, List.idxOf_cons_self, List.idxOf_cons_self]
    omega
  case rest =>
    rw [List.filter_append, List.filter_append, List.filter_cons_of_neg (by simp),
      List.filter_cons_of_neg (by simp), List.filter_filter]
    congr 1
    refine List.filter_congr fun u _ => ?_
    simp

end

variable {state : SessionState Empty}

theorem directories_workingDirectorySet (hnodup : (directories state).Nodup) (directory : URI) :
    (directories (workingDirectorySet state directory)).Nodup := by
  simp only [workingDirectorySet]
  split
  · exact hnodup
  · next hnot =>
    refine List.nodup_append.mpr ⟨hnodup, List.nodup_singleton _, fun u hu v hv => ?_⟩
    rw [List.mem_singleton.mp hv]
    rintro rfl
    exact hnot hu

theorem directories_workingDirectoryRemoved (hnodup : (directories state).Nodup) (directory : URI) :
    (directories (workingDirectoryRemoved state directory)).Nodup := by
  unfold workingDirectoryRemoved
  split
  · exact hnodup
  · next list hlist =>
    split
    · exact hnodup
    · next updated herase =>
      have hold : directories state = list := by rw [directories, hlist]; rfl
      exact (hold ▸ hnodup).sublist (sublist_of_eraseWhere herase)

/-- A directory that is not there is not replaced. -/
theorem workingDirectoryReplaced_of_not_mem {directory : URI} (replacement : URI)
    (hnot : directory ∉ directories state) :
    workingDirectoryReplaced state directory replacement = state := by
  unfold workingDirectoryReplaced
  split
  · rfl
  · next list hlist =>
    have hold : directories state = list := by rw [directories, hlist]; rfl
    have hnone : list.findIdx? (fun u => u = directory) = none :=
      List.findIdx?_eq_none_iff.mpr fun u hu => by
        simp only [decide_eq_false_iff_not]
        rintro rfl
        exact hnot (hold ▸ hu)
    rw [hnone]

/-- The list after a replacement, by where the replacement stands. -/
theorem directories_workingDirectoryReplaced {before after : List URI} {directory replacement : URI}
    (hlist : directories state = before ++ directory :: after) (hnot : directory ∉ before) :
    directories (workingDirectoryReplaced state directory replacement) =
      if replacement ∈ before then before ++ after
      else before ++ replacement :: after.filter fun u => u ≠ replacement := by
  have hsome : state.workingDirectories = some (before ++ directory :: after) := by
    unfold directories at hlist
    cases hd : state.workingDirectories with
    | none => simp [hd] at hlist
    | some list =>
      rw [hd] at hlist
      exact congrArg some hlist
  have hidx := findIdx?_append_cons hnot after
  by_cases hmem : replacement ∈ before
  · obtain ⟨first, rest, rfl, hfirst⟩ := List.eq_append_cons_of_mem hmem
    have hreplacement := findIdx?_append_cons hfirst (rest ++ directory :: after)
    have hassoc : first ++ replacement :: rest ++ directory :: after =
        first ++ replacement :: (rest ++ directory :: after) := by simp
    rw [if_pos hmem]
    simp only [workingDirectoryReplaced, hsome, hidx]
    rw [hassoc, hreplacement]
    have hlt : first.length < (first ++ replacement :: rest).length := by simp
    simp only [hlt, if_true, directories, Option.getD_some]
    rw [← hassoc, List.eraseIdx_append_of_length_le le_rfl]
    simp
  · have hfilter : before.filter (fun u => u ≠ replacement) = before :=
      List.filter_eq_self.mpr fun u hu => by
        simp only [ne_eq, decide_not, Bool.not_eq_eq_eq_not, Bool.not_true, decide_eq_false_iff_not]
        rintro rfl
        exact hmem hu
    have hnew := replaceAt_append before after directory replacement
    rw [hfilter] at hnew
    rw [if_neg hmem]
    simp only [workingDirectoryReplaced, hsome, hidx]
    cases hr : (before ++ directory :: after).findIdx? (fun u => u = replacement) with
    | none => exact hnew
    | some j =>
      have hlate : ¬ j < before.length := by
        intro hlt
        obtain ⟨hj, hmatch, -⟩ := List.findIdx?_eq_some_iff_getElem.mp hr
        rw [List.getElem_append_left hlt] at hmatch
        exact hmem (of_decide_eq_true hmatch ▸ List.getElem_mem hlt)
      simp only [hlate, if_false]
      exact hnew

/-- **Working directories**: setting, removing and replacing keep the list free of duplicates; the
replacement stands at the earlier of the two places; and a directory that is not there is not
replaced. -/
theorem directories_kept (hnodup : (directories state).Nodup) :
    (∀ directory, (directories (sessionReducer state (.workingDirectorySet directory))).Nodup) ∧
      (∀ directory, (directories (sessionReducer state (.workingDirectoryRemoved directory))).Nodup) ∧
      ∀ directory replacement,
        (directories (sessionReducer state (.workingDirectoryReplaced directory replacement))).Nodup ∧
        (directory ∈ directories state → Replaces directory replacement (directories state)
          (directories (sessionReducer state (.workingDirectoryReplaced directory replacement)))) ∧
        (directory ∉ directories state →
          sessionReducer state (.workingDirectoryReplaced directory replacement) = state) := by
  refine ⟨directories_workingDirectorySet hnodup, directories_workingDirectoryRemoved hnodup,
    fun directory replacement => ?_⟩
  simp only [sessionReducer]
  by_cases hmem : directory ∈ directories state
  · obtain ⟨before, after, hlist, hnot⟩ := List.eq_append_cons_of_mem hmem
    rw [directories_workingDirectoryReplaced hlist hnot, hlist]
    rw [hlist] at hnodup hmem
    obtain ⟨hbefore, hafter, hdisjoint⟩ := List.nodup_append.mp hnodup
    split
    · next hr =>
      refine ⟨hnodup.sublist ?_, fun _ => replaces_before hnodup hr, fun h => absurd hmem h⟩
      exact List.Sublist.append (List.Sublist.refl _) (List.sublist_cons_self _ _)
    · next hr =>
      refine ⟨?_, fun _ => replaces_after hnodup hr, fun h => absurd hmem h⟩
      refine List.nodup_append.mpr ⟨hbefore, List.nodup_cons.mpr ⟨by simp, ?_⟩, fun u hu v hv => ?_⟩
      · exact (List.nodup_cons.mp hafter).2.filter _
      · rcases List.mem_cons.mp hv with rfl | hv
        · rintro rfl
          exact hr hu
        · exact hdisjoint u hu v (List.mem_cons_of_mem _ (List.mem_filter.mp hv).1)
  · rw [workingDirectoryReplaced_of_not_mem replacement hmem]
    exact ⟨hnodup, fun h => absurd h hmem, fun _ => rfl⟩

/-- A session with three directories. -/
def threeDirectories : SessionState Empty :=
  { (SessionState.new "agent" "Session" : SessionState Empty) with
    workingDirectories := some ["file:///a", "file:///b", "file:///c"] }

/-- The second of three directories is replaced by the third. -/
theorem directories_kept_third :
    Replaces "file:///b" "file:///c" ["file:///a", "file:///b", "file:///c"]
      ["file:///a", "file:///c"] := by
  have hnodup : (directories threeDirectories).Nodup := by decide
  have hreplaced : directories (sessionReducer threeDirectories
      (.workingDirectoryReplaced "file:///b" "file:///c")) = ["file:///a", "file:///c"] := by decide
  have hkept := (directories_kept hnodup).2.2 "file:///b" "file:///c"
  exact hreplaced ▸ hkept.2.1 (by decide)

end AgentHostProtocol.Session
