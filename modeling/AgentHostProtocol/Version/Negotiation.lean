import AgentHostProtocol.Version.Registry
import Mathlib.Data.Prod.Lex
import Mathlib.Data.List.Induction
import Mathlib.Order.Bounds.Basic

/-!
# Negotiating a version

Versions as triples of numbers, in lexicographic order, and the caret ranges of the supported
versions.

**What is proved** (`negotiated`): of versions whose components are exact as doubles, the greatest
supported one is selected, whatever the order of the offers and however often each is made, and none
if there is none; and an offer is refused with an error exactly if one of its versions is no triple of
numbers written with dots.
-/

namespace AgentHostProtocol.Version

open Library

/-- A version as its components. -/
@[ext] structure SemVer where
  /-- Incompatible changes. -/
  major : ℕ
  /-- Additions; incompatible changes below 1.0. -/
  minor : ℕ
  /-- Corrections. -/
  patch : ℕ
deriving Repr, DecidableEq

namespace SemVer

def key (v : SemVer) : ℕ ×ₗ ℕ ×ₗ ℕ := toLex (v.major, toLex (v.minor, v.patch))

theorem key_injective : Function.Injective key := by
  intro v w h
  simpa [key, SemVer.ext_iff] using h

/-- Versions are ordered by their components, the major one first. -/
instance : LinearOrder SemVer := LinearOrder.lift' key key_injective

theorem lt_iff {v w : SemVer} : v < w ↔
    v.major < w.major ∨ v.major = w.major ∧ (v.minor < w.minor ∨ v.minor = w.minor ∧ v.patch < w.patch) := by
  refine Prod.Lex.lt_iff.trans (or_congr Iff.rfl (and_congr Iff.rfl ?_))
  exact Prod.Lex.lt_iff

/-- As it is written. -/
def render (v : SemVer) : String :=
  toString v.major ++ "." ++ toString v.minor ++ "." ++ toString v.patch

/-- As JavaScript reads it. -/
def parts (v : SemVer) : Number × Number × Number := (.ofRat v.major, .ofRat v.minor, .ofRat v.patch)

/-- The components are exact as doubles. -/
def Fits (v : SemVer) : Prop := v.major < 2 ^ 53 ∧ v.minor < 2 ^ 53 ∧ v.patch < 2 ^ 53

instance (v : SemVer) : Decidable v.Fits := inferInstanceAs (Decidable (_ ∧ _ ∧ _))

theorem toList_render (v : SemVer) : v.render.toList =
    Nat.toDigits 10 v.major ++ '.' :: (Nat.toDigits 10 v.minor ++ '.' :: Nat.toDigits 10 v.patch) := by
  simp [render, Nat.toList_repr]

theorem Fits.parts_eq {v : SemVer} (h : v.Fits) :
    v.parts = (.finite v.major, .finite v.minor, .finite v.patch) := by
  obtain ⟨hmajor, hminor, hpatch⟩ := h
  rw [parts, Binary64.ofRat_natCast hmajor, Binary64.ofRat_natCast hminor, Binary64.ofRat_natCast hpatch]

end SemVer

/-- In the caret range of a baseline: the components up to the first that is not zero are those of the
baseline, and the version is not below it. -/
structure InCaret (base v : SemVer) : Prop where
  major : v.major = base.major
  minor : base.major = 0 → v.minor = base.minor
  patch : base.major = 0 → base.minor = 0 → v.patch = base.patch
  le : base ≤ v

/-- In the caret range of a supported version. -/
def Supported (v : SemVer) : Prop := ∃ base : SemVer, base.render ∈ SUPPORTED_PROTOCOL_VERSIONS ∧ InCaret base v

/-! ### Reading -/

theorem dot_eq_some {cs rest : List Char} (h : dot cs = some rest) : cs = '.' :: rest := by
  unfold dot at h
  split at h
  · cases h
    rfl
  · cases h

theorem groups_render (v : SemVer) : groups v.render.toList =
    some (Nat.toDigits 10 v.major, Nat.toDigits 10 v.minor, Nat.toDigits 10 v.patch) := by
  have hdot : ∀ n (rest : List Char),
      readDecimal (Nat.toDigits 10 n ++ '.' :: rest) = some (Nat.toDigits 10 n, '.' :: rest) := by
    intro n rest
    refine readDecimal_append (canonical_toDigits n) fun c hc => ?_
    cases hc
    decide
  have hlast := @readDecimal_append _ [] (canonical_toDigits v.patch) (by simp)
  rw [List.append_nil] at hlast
  simp [SemVer.toList_render, groups, dot, hdot, hlast]

theorem groups_eq_some {cs ds ds' ds'' : List Char} (h : groups cs = some (ds, ds', ds'')) :
    ∃ v : SemVer, cs = v.render.toList := by
  simp only [groups, Option.bind_eq_bind, Option.bind_eq_some_iff, Prod.exists] at h
  obtain ⟨major, rest, hmajor, rest₁, hdot, minor, rest₂, hminor, rest₃, hdot', patch, rest₄, hpatch, hend⟩ := h
  obtain ⟨rfl, hmajorDigits⟩ := readDecimal_eq_some hmajor
  obtain rfl := dot_eq_some hdot
  obtain ⟨rfl, hminorDigits⟩ := readDecimal_eq_some hminor
  obtain rfl := dot_eq_some hdot'
  obtain ⟨rfl, hpatchDigits⟩ := readDecimal_eq_some hpatch
  obtain rfl : rest₄ = [] := by
    by_contra hne
    rw [if_neg hne] at hend
    cases hend
  refine ⟨⟨Nat.ofDigitChars 10 major 0, Nat.ofDigitChars 10 minor 0, Nat.ofDigitChars 10 patch 0⟩, ?_⟩
  rw [SemVer.toList_render, toDigits_ofDigitChars hmajorDigits, toDigits_ofDigitChars hminorDigits,
    toDigits_ofDigitChars hpatchDigits, List.append_nil]

/-- A version is written in one way. -/
theorem render_injective : Function.Injective SemVer.render := by
  intro v w h
  have hgroups := congrArg (fun s : String => groups s.toList) h
  simp only [groups_render, Option.some.injEq, Prod.mk.injEq] at hgroups
  obtain ⟨hmajor, hminor, hpatch⟩ := hgroups
  have hvalue : ∀ {n m : ℕ}, Nat.toDigits 10 n = Nat.toDigits 10 m → n = m := by
    intro n m heq
    have hdigits := congrArg (fun ds => Nat.ofDigitChars 10 ds 0) heq
    simpa only [Nat.ofDigitChars_ten_toDigits] using hdigits
  exact SemVer.ext (hvalue hmajor) (hvalue hminor) (hvalue hpatch)

theorem parseSemver_render (v : SemVer) : parseSemver v.render = .ok v.parts := by
  simp only [parseSemver, groups_render, Number.ofDigits, Nat.ofDigitChars_ten_toDigits]
  rfl

theorem parseSemver_eq_error {s e : String} (h : parseSemver s = .error e) (v : SemVer) : v.render ≠ s := by
  rintro rfl
  rw [parseSemver_render] at h
  cases h

theorem parseSemver_eq_ok {s : String} {parts : Number × Number × Number} (h : parseSemver s = .ok parts) :
    ∃ v : SemVer, v.render = s := by
  unfold parseSemver at h
  split at h
  · next hgroups =>
    obtain ⟨v, hv⟩ := groups_eq_some hgroups
    exact ⟨v, String.toList_inj.mp hv.symm⟩
  · cases h

/-! ### Comparing -/

/-- The first difference of components that is not zero. -/
def difference (v w : SemVer) : ℤ :=
  if v.major ≠ w.major then v.major - w.major
  else if v.minor ≠ w.minor then v.minor - w.minor
  else v.patch - w.patch

theorem difference_pos {v w : SemVer} : 0 < difference v w ↔ w < v := by
  rw [SemVer.lt_iff, difference]
  split_ifs <;> omega

theorem difference_nonneg {v w : SemVer} : 0 ≤ difference v w ↔ w ≤ v := by
  rw [← @not_lt _ _ v w, SemVer.lt_iff, difference]
  split_ifs <;> omega

theorem or_intCast (n : ℤ) (x : Number) : Number.or (.finite n) x = if n = 0 then x else .finite n := by
  simp [Number.or]

theorem zero_lt_intCast (n : ℤ) : zero.lt (.finite n) = decide (0 < n) := by
  simp [zero, Binary64.lt]

theorem zero_le_intCast (n : ℤ) : zero.le (.finite n) = decide (0 ≤ n) := by
  have hcast : (0 : ℚ) = n ↔ 0 = n := by rw [eq_comm, Int.cast_eq_zero, eq_comm]
  simp [zero, Binary64.le, Binary64.lt, Binary64.beq, ← Bool.decide_or, hcast, le_iff_lt_or_eq]

/-- Versions whose components are exact are compared as their components are. -/
theorem compareProtocolVersions_render {v w : SemVer} (hv : v.Fits) (hw : w.Fits) :
    compareProtocolVersions v.render w.render = .ok (.finite (difference v w : ℤ)) := by
  have hsub : ∀ n m : ℕ, n < 2 ^ 53 → m < 2 ^ 53 →
      Binary64.sub (.finite n) (.finite m) = .finite ((n - m : ℤ) : ℚ) := by
    intro n m hn hm
    have hdiff := @Binary64.sub_intCast n m (abs_lt.mpr ⟨by omega, by omega⟩)
    push_cast at hdiff ⊢
    exact hdiff
  obtain ⟨hmajor, hminor, hpatch⟩ := hv
  obtain ⟨hmajor', hminor', hpatch'⟩ := hw
  have hparts : compareProtocolVersions v.render w.render = .ok
      (Number.or (Number.or (.finite ((v.major - w.major : ℤ) : ℚ)) (.finite ((v.minor - w.minor : ℤ) : ℚ)))
        (.finite ((v.patch - w.patch : ℤ) : ℚ))) := by
    rw [compareProtocolVersions, parseSemver_render, parseSemver_render, SemVer.Fits.parts_eq ⟨hmajor, hminor, hpatch⟩,
      SemVer.Fits.parts_eq ⟨hmajor', hminor', hpatch'⟩, ← hsub _ _ hmajor hmajor', ← hsub _ _ hminor hminor',
      ← hsub _ _ hpatch hpatch']
    rfl
  rw [hparts, or_intCast, difference]
  by_cases hmajor : v.major = w.major
  · rw [if_pos (by omega), or_intCast, if_neg (not_not.mpr hmajor)]
    by_cases hminor : v.minor = w.minor
    · rw [if_pos (by omega), if_neg (not_not.mpr hminor)]
    · rw [if_neg (by omega), if_pos hminor]
  · rw [if_neg (by omega), or_intCast, if_neg (by omega), if_pos hmajor]

/-! ### The caret range -/

theorem compatible_render {base v : SemVer} (hbase : base.Fits) (hv : v.Fits) :
    ∃ b, compatible v.render v.parts base.render = .ok b ∧ (b = true ↔ InCaret base v) := by
  have hrun : compatible v.render v.parts base.render =
      if (decide ((v.major : ℚ) = base.major) && (decide (0 < (v.major : ℚ)) || decide ((v.minor : ℚ) = base.minor)) &&
          (decide (0 < (v.major : ℚ)) || decide (0 < (v.minor : ℚ)) || decide ((v.patch : ℚ) = base.patch))) = true
      then .ok (zero.le (.finite (difference v base : ℤ))) else .ok false := by
    rw [compatible, parseSemver_render, hbase.parts_eq, hv.parts_eq, compareProtocolVersions_render hv hbase]
    rfl
  rw [hrun]
  simp only [Bool.and_eq_true, Bool.or_eq_true, decide_eq_true_eq, Nat.cast_inj, Nat.cast_pos]
  split
  · next hcond =>
    obtain ⟨⟨hmajor, hminor⟩, hpatch⟩ := hcond
    refine ⟨_, rfl, ?_⟩
    rw [zero_le_intCast, decide_eq_true_eq, difference_nonneg]
    exact ⟨fun hle => ⟨by omega, by omega, by omega, hle⟩, InCaret.le⟩
  · next hcond =>
    refine ⟨false, rfl, ?_⟩
    simp only [Bool.false_eq_true, false_iff]
    intro hin
    obtain ⟨hmajor, hminor, hpatch, -⟩ := hin
    exact hcond ⟨⟨by omega, by omega⟩, by omega⟩

/-- The baselines, as versions. -/
theorem eq_of_mem_supported {base : SemVer} (h : base.render ∈ SUPPORTED_PROTOCOL_VERSIONS) :
    base = ⟨1, 0, 0⟩ ∨ base = ⟨0, 9, 0⟩ := by
  have hone : SemVer.render ⟨1, 0, 0⟩ = "1.0.0" := by decide
  have hnine : SemVer.render ⟨0, 9, 0⟩ = "0.9.0" := by decide
  rw [SUPPORTED_PROTOCOL_VERSIONS, ← hone, ← hnine, List.mem_pair, render_injective.eq_iff,
    render_injective.eq_iff] at h
  exact h

theorem fits_of_mem_supported {base : SemVer} (h : base.render ∈ SUPPORTED_PROTOCOL_VERSIONS) : base.Fits := by
  obtain rfl | rfl := eq_of_mem_supported h
  · decide
  · decide

/-- Every supported version is written as one. -/
theorem exists_of_mem_supported {s : String} (h : s ∈ SUPPORTED_PROTOCOL_VERSIONS) :
    ∃ base : SemVer, base.render = s := by
  rw [SUPPORTED_PROTOCOL_VERSIONS, List.mem_pair] at h
  obtain rfl | rfl := h
  · exact ⟨⟨1, 0, 0⟩, by decide⟩
  · exact ⟨⟨0, 9, 0⟩, by decide⟩

/-- A search whose tests give answers gives one: whether some answer is yes. -/
theorem anyM_eq_ok {α ε : Type} {f : α → Except ε Bool} {p : α → Prop} {l : List α}
    (h : ∀ x ∈ l, ∃ b, f x = .ok b ∧ (b = true ↔ p x)) :
    ∃ b, l.anyM f = .ok b ∧ (b = true ↔ ∃ x ∈ l, p x) := by
  induction l with
  | nil => exact ⟨false, rfl, by simp⟩
  | cons x l ih =>
    obtain ⟨b, hb, hp⟩ := h x List.mem_cons_self
    obtain ⟨b', hb', hp'⟩ := ih fun y hy => h y (List.mem_cons_of_mem _ hy)
    rw [List.anyM, hb]
    cases b with
    | true => exact ⟨true, rfl, by simp [hp.mp rfl]⟩
    | false =>
      have hnot : ¬ p x := fun hx => by simpa using hp.mpr hx
      exact ⟨b', hb', by simp [hp', hnot]⟩

theorem anyM_compatible {v : SemVer} (hv : v.Fits) :
    ∃ b, SUPPORTED_PROTOCOL_VERSIONS.anyM (compatible v.render v.parts) = .ok b ∧
      (b = true ↔ Supported v) := by
  have hany := anyM_eq_ok (f := compatible v.render v.parts)
    (p := fun s => ∃ base : SemVer, base.render = s ∧ InCaret base v) (l := SUPPORTED_PROTOCOL_VERSIONS)
    (by
      intro s hs
      obtain ⟨base, rfl⟩ := exists_of_mem_supported hs
      obtain ⟨b, hb, hin⟩ := compatible_render (fits_of_mem_supported hs) hv
      refine ⟨b, hb, hin.trans ⟨fun h => ⟨base, rfl, h⟩, ?_⟩⟩
      rintro ⟨base', heq, h⟩
      rwa [render_injective heq] at h)
  obtain ⟨b, hb, hex⟩ := hany
  refine ⟨b, hb, hex.trans ⟨?_, ?_⟩⟩
  · rintro ⟨s, hs, base, rfl, hin⟩
    exact ⟨base, hs, hin⟩
  · rintro ⟨base, hs, hin⟩
    exact ⟨base.render, hs, base, rfl, hin⟩

/-! ### The selection -/

/-- The offered versions that are supported. -/
def offers (offered : List String) : Set SemVer := {v | v.render ∈ offered ∧ Supported v}

/-- What is selected from the offers: the greatest that is supported, if there is one. -/
def Selected (offered : List String) : Option String → Prop
  | none => ∀ v ∈ offers offered, False
  | some s => ∃ v : SemVer, v.render = s ∧ IsGreatest (offers offered) v

/-- One more version is offered. -/
theorem mem_offers_append {offered : List String} {v w : SemVer} :
    w ∈ offers (offered ++ [v.render]) ↔ w ∈ offers offered ∨ w = v ∧ Supported v := by
  simp only [offers, Set.mem_ofPred_eq, List.mem_append, List.mem_singleton, render_injective.eq_iff]
  constructor
  · rintro ⟨hmem | rfl, hw⟩
    · exact .inl ⟨hmem, hw⟩
    · exact .inr ⟨rfl, hw⟩
  · rintro (⟨hmem, hw⟩ | ⟨rfl, hw⟩)
    · exact ⟨.inl hmem, hw⟩
    · exact ⟨.inr rfl, hw⟩

theorem offers_append_of_not_supported {offered : List String} {v : SemVer} (h : ¬ Supported v) :
    offers (offered ++ [v.render]) = offers offered := by
  ext w
  simp [mem_offers_append, h]

/-- What an offer of a version comes to, once it is known whether it is compatible. -/
theorem consider_render {selected : Option String} {v : SemVer} {b : Bool}
    (hany : SUPPORTED_PROTOCOL_VERSIONS.anyM (compatible v.render v.parts) = .ok b) :
    consider selected v.render =
      if b = true then
        match selected with
        | none => .ok (some v.render)
        | some best => (compareProtocolVersions v.render best).map fun n =>
          if zero.lt n then some v.render else some best
      else .ok selected := by
  simp only [consider, parseSemver_render, bind, Except.bind, hany, pure, Except.pure]
  split
  · cases selected with
    | none => rfl
    | some best =>
      dsimp only
      cases compareProtocolVersions v.render best <;> rfl
  · rfl

theorem consider_selected {seen : List String} {selected : Option String} (h : Selected seen selected)
    (hseen : ∀ s ∈ seen, ∃ v : SemVer, v.Fits ∧ v.render = s) {v : SemVer} (hv : v.Fits) :
    ∃ selected', consider selected v.render = .ok selected' ∧ Selected (seen ++ [v.render]) selected' := by
  obtain ⟨b, hany, hsupported⟩ := anyM_compatible hv
  rw [consider_render hany]
  cases b with
  | false =>
    have hnot : ¬ Supported v := fun hs => by simpa using hsupported.mpr hs
    refine ⟨selected, rfl, ?_⟩
    rw [Selected.eq_def, offers_append_of_not_supported hnot]
    exact h
  | true =>
    have hs : Supported v := hsupported.mp rfl
    have hlast : v ∈ offers (seen ++ [v.render]) := mem_offers_append.mpr (.inr ⟨rfl, hs⟩)
    cases selected with
    | none =>
      refine ⟨some v.render, rfl, v, rfl, hlast, fun w hw => ?_⟩
      obtain hw | ⟨rfl, -⟩ := mem_offers_append.mp hw
      · exact (h w hw).elim
      · exact le_refl _
    | some best =>
      obtain ⟨u, rfl, hu, hgreatest⟩ := h
      obtain ⟨u', hfits, heq⟩ := hseen _ hu.1
      rw [render_injective heq] at hfits
      refine ⟨if 0 < difference v u then some v.render else some u.render, ?_, ?_⟩
      · simp [compareProtocolVersions_render hv hfits, Except.map, zero_lt_intCast]
      · split
        · next hpos =>
          have hlt := difference_pos.mp hpos
          refine ⟨v, rfl, hlast, fun w hw => ?_⟩
          obtain hw | ⟨rfl, -⟩ := mem_offers_append.mp hw
          · exact (hgreatest hw).trans hlt.le
          · exact le_refl _
        · next hpos =>
          have hle := not_lt.mp (mt difference_pos.mpr hpos)
          refine ⟨u, rfl, mem_offers_append.mpr (.inl hu), fun w hw => ?_⟩
          obtain hw | ⟨rfl, -⟩ := mem_offers_append.mp hw
          · exact hgreatest hw
          · exact hle

theorem foldlM_selected {offered : List String} (h : ∀ s ∈ offered, ∃ v : SemVer, v.Fits ∧ v.render = s) :
    ∃ selected, negotiateProtocolVersion offered = .ok selected ∧ Selected offered selected := by
  induction offered using List.reverseRecOn with
  | nil => exact ⟨none, rfl, fun v hv => by cases hv.1⟩
  | append_singleton seen s ih =>
    have hseen : ∀ s ∈ seen, ∃ v : SemVer, v.Fits ∧ v.render = s := fun t ht =>
      h t (List.mem_append_left _ ht)
    obtain ⟨selected, hrun, hselected⟩ := ih hseen
    obtain ⟨v, hv, rfl⟩ := h s (List.mem_append_right _ List.mem_cons_self)
    obtain ⟨selected', hstep, hselected'⟩ := consider_selected hselected hseen hv
    refine ⟨selected', ?_, hselected'⟩
    rw [negotiateProtocolVersion] at hrun ⊢
    rw [List.foldlM_append, hrun]
    show [v.render].foldlM consider selected = _
    rw [List.foldlM_cons, hstep]
    rfl

/-- There is one selection, by the versions that are offered. -/
theorem Selected.unique {offered offered' : List String} {selected selected' : Option String}
    (h : Selected offered selected) (h' : Selected offered' selected')
    (hoffers : offers offered' = offers offered) : selected' = selected := by
  cases selected with
  | none =>
    cases selected' with
    | none => rfl
    | some s =>
      obtain ⟨v, -, hv, -⟩ := h'
      exact (h v (hoffers ▸ hv)).elim
  | some s =>
    obtain ⟨v, rfl, hv⟩ := h
    cases selected' with
    | none => exact (h' v (hoffers ▸ hv.1)).elim
    | some s' =>
      obtain ⟨w, rfl, hw⟩ := h'
      rw [hoffers] at hw
      rw [hw.unique hv]

/-! ### Errors -/

theorem compareProtocolVersions_ok (v w : SemVer) :
    ∃ n, compareProtocolVersions v.render w.render = .ok n := by
  rw [compareProtocolVersions, parseSemver_render, parseSemver_render]
  exact ⟨_, rfl⟩

/-- Whatever its components, a version is compared with a baseline. -/
theorem compatible_ok (v base : SemVer) : ∃ b, compatible v.render v.parts base.render = .ok b := by
  obtain ⟨n, hn⟩ := compareProtocolVersions_ok v base
  simp only [compatible, parseSemver_render, hn, bind, Except.bind, pure, Except.pure]
  split
  · exact ⟨_, rfl⟩
  · exact ⟨_, rfl⟩

theorem consider_ok {selected : Option String} (h : ∀ s ∈ selected, ∃ v : SemVer, v.render = s) (v : SemVer) :
    ∃ selected', consider selected v.render = .ok selected' ∧ ∀ s ∈ selected', ∃ v : SemVer, v.render = s := by
  obtain ⟨b, hany, -⟩ := anyM_eq_ok (f := compatible v.render v.parts) 
    (p := fun s => compatible v.render v.parts s = .ok true) (l := SUPPORTED_PROTOCOL_VERSIONS) (by
      intro s hs
      obtain ⟨base, rfl⟩ := exists_of_mem_supported hs
      obtain ⟨b, hb⟩ := compatible_ok v base
      refine ⟨b, hb, ?_⟩
      rw [hb]
      exact ⟨congrArg _, Except.ok.inj⟩)
  rw [consider_render hany]
  have hv : ∀ s ∈ some v.render, ∃ v : SemVer, v.render = s := by
    rintro s ⟨⟩
    exact ⟨v, rfl⟩
  cases b with
  | false => exact ⟨selected, rfl, h⟩
  | true =>
    cases selected with
    | none => exact ⟨some v.render, rfl, hv⟩
    | some best =>
      obtain ⟨u, rfl⟩ := h best rfl
      obtain ⟨n, hn⟩ := compareProtocolVersions_ok v u
      refine ⟨if zero.lt n then some v.render else some u.render, ?_, ?_⟩
      · simp [hn, Except.map]
      · split
        · exact hv
        · exact h

/-- An offer is refused exactly if it contains what is no version. -/
theorem foldlM_error {selected : Option String} (h : ∀ s ∈ selected, ∃ v : SemVer, v.render = s)
    (offered : List String) : (∃ e, offered.foldlM consider selected = .error e) ↔
      ∃ s ∈ offered, ∀ v : SemVer, v.render ≠ s := by
  induction offered generalizing selected with
  | nil =>
    refine iff_of_false ?_ (by simp)
    rintro ⟨e, he⟩
    cases he
  | cons s offered ih =>
    rw [List.foldlM_cons]
    cases hparse : parseSemver s with
    | error e =>
      have hstep : consider selected s = .error e := by
        rw [consider.eq_def, hparse]
        rfl
      rw [hstep]
      exact iff_of_true ⟨e, rfl⟩ ⟨s, List.mem_cons_self, parseSemver_eq_error hparse⟩
    | ok parts =>
      obtain ⟨v, rfl⟩ := parseSemver_eq_ok hparse
      obtain ⟨selected', hstep, hselected'⟩ := consider_ok h v
      rw [hstep]
      refine (ih hselected').trans ?_
      simp

/-- **Negotiation**: of versions whose components are exact, the greatest that is supported is selected,
and none if there is none, whatever the order and the repetitions of the offers. An offer is refused
with an error exactly if it contains what is no version. -/
theorem negotiated :
    (∀ offered : List String, (∀ s ∈ offered, ∃ v : SemVer, v.Fits ∧ v.render = s) →
      (∀ s, negotiateProtocolVersion offered = .ok (some s) ↔
        ∃ v : SemVer, v.render = s ∧ IsGreatest {w | w.render ∈ offered ∧ Supported w} v) ∧
      (negotiateProtocolVersion offered = .ok none ↔ ∀ v : SemVer, v.render ∈ offered → ¬ Supported v) ∧
      ∀ offered' : List String, (∀ s, s ∈ offered' ↔ s ∈ offered) →
        negotiateProtocolVersion offered' = negotiateProtocolVersion offered) ∧
    ∀ offered : List String, (∃ e, negotiateProtocolVersion offered = .error e) ↔
      ∃ s ∈ offered, ∀ v : SemVer, v.render ≠ s := by
  refine ⟨fun offered h => ?_, foldlM_error (by simp)⟩
  obtain ⟨selected, hrun, hselected⟩ := foldlM_selected h
  refine ⟨fun s => ?_, ?_, fun offered' hmem => ?_⟩
  · rw [hrun]
    constructor
    · rintro ⟨⟩
      exact hselected
    · intro hs
      rw [hselected.unique (show Selected offered (some s) from hs) rfl]
  · rw [hrun]
    constructor
    · rintro ⟨⟩ v hv hsupported
      exact hselected v ⟨hv, hsupported⟩
    · intro hnone
      rw [hselected.unique (show Selected offered none from fun v hv => hnone v hv.1 hv.2) rfl]
  · obtain ⟨selected', hrun', hselected'⟩ := foldlM_selected (fun s hs => h s ((hmem s).mp hs))
    have hoffers : offers offered' = offers offered := by
      ext v
      exact and_congr (hmem v.render) Iff.rfl
    rw [hrun, hrun', hselected.unique hselected' hoffers]

/-- Of three offers, one above the range of every baseline, the later one within `0.9` is selected. -/
theorem negotiated_greatest_of_three :
    negotiateProtocolVersion ["0.9.8", "2.0.0", "0.9.10"] = .ok (some "0.9.10") := by
  have hrender : [SemVer.render ⟨0, 9, 8⟩, SemVer.render ⟨2, 0, 0⟩, SemVer.render ⟨0, 9, 10⟩] =
      ["0.9.8", "2.0.0", "0.9.10"] := by decide
  have hfits : ∀ s ∈ ["0.9.8", "2.0.0", "0.9.10"], ∃ v : SemVer, v.Fits ∧ v.render = s := by
    rw [← hrender]
    intro s hs
    simp only [List.mem_cons, List.not_mem_nil, or_false] at hs
    obtain rfl | rfl | rfl := hs
    · exact ⟨_, by decide, rfl⟩
    · exact ⟨_, by decide, rfl⟩
    · exact ⟨_, by decide, rfl⟩
  refine ((negotiated.1 _ hfits).1 _).mpr ⟨⟨0, 9, 10⟩, by decide, ⟨?_, ?_⟩, ?_⟩
  · decide
  · exact ⟨⟨0, 9, 0⟩, by decide, ⟨rfl, fun _ => rfl, by simp, by decide⟩⟩
  · rintro w ⟨hw, base, hbase, hin⟩
    rw [← hrender] at hw
    simp only [List.mem_cons, List.not_mem_nil, or_false, render_injective.eq_iff] at hw
    obtain rfl | rfl | rfl := hw
    · decide
    · have hmajor : (2 : ℕ) = base.major := hin.major
      obtain rfl | rfl := eq_of_mem_supported hbase
      · cases hmajor
      · cases hmajor
    · exact le_refl _

end AgentHostProtocol.Version
