import Mathlib.Data.List.Sublists
import Mathlib.Data.Rat.Floor
import Mathlib.Algebra.Order.BigOperators.GroupWithZero.List

/-! # Repeated scaling with truncation

A number is multiplied by ratios one after the other, and each product is truncated. The result
depends on the order of the ratios, and dividing by them again need not lead back. -/

namespace NomoApi

open List

namespace Scaling

/-- **One scaling**: the product, truncated. -/
def scale (n : ℕ) (r : ℚ) : ℕ := ⌊n * r⌋₊

/-- **Scaling by a list of ratios**, from left to right. -/
def scaleAll (n : ℕ) (rs : List ℚ) : ℕ := rs.foldl scale n

@[simp] theorem scaleAll_nil (n : ℕ) : scaleAll n [] = n := rfl

theorem scaleAll_cons (n : ℕ) (r : ℚ) (rs : List ℚ) :
    scaleAll n (r :: rs) = scaleAll (scale n r) rs := rfl

@[simp] theorem scaleAll_zero (rs : List ℚ) : scaleAll 0 rs = 0 := by
  induction rs with
  | nil => rfl
  | cons r rs ih =>
    rw [scaleAll_cons, scale, Nat.cast_zero, zero_mul, Nat.floor_zero]
    exact ih

abbrev Positive (rs : List ℚ) : Prop := ∀ r ∈ rs, 0 < r

variable {rs rs' : List ℚ}

theorem Positive.prod_pos (h : Positive rs) : 0 < rs.prod := List.prod_pos h

theorem Positive.perm (h : Positive rs) (hperm : rs'.Perm rs) : Positive rs' :=
  fun r hr => h r (hperm.mem_iff.mp hr)

/-! ### The number that a result needs -/

/-- **The least number that is scaled to `k` or more.** -/
def needed (k : ℕ) (rs : List ℚ) : ℕ := rs.foldr (fun r k => ⌈(k : ℚ) / r⌉₊) k

theorem le_scaleAll_iff (hpos : Positive rs) (k n : ℕ) : k ≤ scaleAll n rs ↔ needed k rs ≤ n := by
  induction rs generalizing n with
  | nil => rfl
  | cons r rs ih =>
    obtain ⟨hr, hrest⟩ := forall_mem_cons.mp hpos
    rw [scaleAll_cons, ih hrest, scale, Nat.le_floor_iff (by positivity), ← div_le_iff₀ hr,
      ← Nat.ceil_le]
    rfl

theorem scaleAll_eq_zero_iff (hpos : Positive rs) (n : ℕ) :
    scaleAll n rs = 0 ↔ n < needed 1 rs := by
  rw [← not_le, ← le_scaleAll_iff hpos, Nat.one_le_iff_ne_zero, not_not]

theorem scaleAll_eq_self_iff (hpos : Positive rs) (n : ℕ) :
    scaleAll n rs = n ↔ needed n rs ≤ n ∧ n < needed (n + 1) rs := by
  rw [← le_scaleAll_iff hpos, ← not_le, ← le_scaleAll_iff hpos]
  omega

theorem le_scaleAll_of_one_le (hone : ∀ r ∈ rs, 1 ≤ r) (n : ℕ) : n ≤ scaleAll n rs := by
  induction rs generalizing n with
  | nil => exact le_rfl
  | cons r rs ih =>
    have hstep : n ≤ scale n r :=
      Nat.le_floor (le_mul_of_one_le_right (Nat.cast_nonneg n) (hone r mem_cons_self))
    exact hstep.trans (ih (fun x hx => hone x (mem_cons_of_mem r hx)) _)

/-- **Ratios from one on leave a number alone** iff none of them adds a unit to it. -/
theorem scaleAll_eq_self_of_one_le (hone : ∀ r ∈ rs, 1 ≤ r) (n : ℕ) :
    scaleAll n rs = n ↔ ∀ r ∈ rs, (n : ℚ) * r < n + 1 := by
  induction rs with
  | nil => simp
  | cons r rs ih =>
    obtain ⟨hr, hrest⟩ := forall_mem_cons.mp hone
    have hnonneg : 0 ≤ (n : ℚ) * r := mul_nonneg (Nat.cast_nonneg n) (zero_le_one.trans hr)
    have hstep : n ≤ scale n r := Nat.le_floor (le_mul_of_one_le_right (Nat.cast_nonneg n) hr)
    have hlt : scale n r < n + 1 ↔ (n : ℚ) * r < n + 1 := by
      rw [scale, Nat.floor_lt hnonneg, Nat.cast_add, Nat.cast_one]
    rw [scaleAll_cons, forall_mem_cons, ← hlt, ← ih hrest]
    constructor
    · intro h
      have hle := le_scaleAll_of_one_le hrest (scale n r)
      have heq : scale n r = n := by omega
      rw [heq] at h
      exact ⟨by omega, h⟩
    · rintro ⟨h, hself⟩
      have heq : scale n r = n := by omega
      rw [heq, hself]

/-! ### Scaling without loss -/

theorem scaleAll_le (hpos : Positive rs) (n : ℕ) : (scaleAll n rs : ℚ) ≤ n * rs.prod := by
  induction rs generalizing n with
  | nil => simp
  | cons r rs ih =>
    obtain ⟨hr, hrest⟩ := forall_mem_cons.mp hpos
    have hfloor : (scale n r : ℚ) ≤ n * r := Nat.floor_le (by positivity)
    calc (scaleAll n (r :: rs) : ℚ) ≤ scale n r * rs.prod := ih hrest _
      _ ≤ n * r * rs.prod := mul_le_mul_of_nonneg_right hfloor (Positive.prod_pos hrest).le
      _ = n * (r :: rs).prod := by rw [prod_cons, mul_assoc]

theorem scaleAll_left_eq (hpos : Positive rs) (hpos' : Positive rs') {n : ℕ}
    (h : (scaleAll n (rs ++ rs') : ℚ) = n * (rs ++ rs').prod) :
    (scaleAll n rs : ℚ) = n * rs.prod := by
  refine le_antisymm (scaleAll_le hpos n) (le_of_mul_le_mul_right ?_ hpos'.prod_pos)
  calc n * rs.prod * rs'.prod = n * (rs ++ rs').prod := by rw [prod_append, mul_assoc]
    _ = scaleAll (scaleAll n rs) rs' := by rw [← h, scaleAll, foldl_append]; rfl
    _ ≤ scaleAll n rs * rs'.prod := scaleAll_le hpos' _

/-- **All partial products are whole**, whatever the order. -/
def WholePartials (b : ℕ) (rs : List ℚ) : Prop :=
  ∀ l l' : List ℚ, (l ++ l').Perm rs → ∃ m : ℕ, (b : ℚ) * l.prod = m

variable {b : ℕ}

theorem WholePartials.perm (h : WholePartials b rs) (hperm : rs'.Perm rs) : WholePartials b rs' :=
  fun l l' hl => h l l' (hl.trans hperm)

/-- **A number with whole partial products is scaled without loss**, next to any other. -/
theorem scaleAll_add_aux {done : List ℚ} (hpos : Positive rs) (h : WholePartials b (done ++ rs))
    {m : ℕ} (hm : (b : ℚ) * done.prod = m) (d : ℕ) :
    (scaleAll (m + d) rs : ℚ) = b * (done ++ rs).prod + scaleAll d rs := by
  induction rs generalizing done m d with
  | nil => rw [append_nil, hm, scaleAll_nil, scaleAll_nil, Nat.cast_add]
  | cons r rs ih =>
    obtain ⟨hr, hrest⟩ := forall_mem_cons.mp hpos
    have hassoc : done ++ r :: rs = (done ++ [r]) ++ rs := by
      rw [append_assoc, singleton_append]
    rw [hassoc] at h ⊢
    obtain ⟨m', hm'⟩ := h (done ++ [r]) rs (Perm.refl _)
    have hmr : (m : ℚ) * r = m' := by
      rw [← hm', prod_append, prod_singleton, ← mul_assoc, hm]
    have hstep : scale (m + d) r = m' + scale d r := by
      rw [scale, Nat.cast_add, add_mul, hmr, add_comm, Nat.floor_add_natCast (by positivity),
        add_comm, scale]
    rw [scaleAll_cons, hstep, ih hrest h hm', scaleAll_cons]

theorem scaleAll_add (hpos : Positive rs) (h : WholePartials b rs) (d : ℕ) :
    (scaleAll (b + d) rs : ℚ) = b * rs.prod + scaleAll d rs :=
  @scaleAll_add_aux rs b [] hpos h b (by rw [prod_nil, mul_one]) d

/-! ### The unit -/

/-- **The least number with whole partial products.** -/
def wholeUnit (rs : List ℚ) : ℕ := (rs.sublists.map fun l => l.prod.den).foldr Nat.lcm 1

theorem foldr_lcm_dvd_iff (ds : List ℕ) (b : ℕ) : ds.foldr Nat.lcm 1 ∣ b ↔ ∀ d ∈ ds, d ∣ b := by
  induction ds with
  | nil => simp
  | cons d ds ih => rw [foldr_cons, Nat.lcm_dvd_iff, ih, forall_mem_cons]

theorem exists_natCast_eq_mul_iff {q : ℚ} (hq : 0 ≤ q) (b : ℕ) :
    (∃ m : ℕ, (b : ℚ) * q = m) ↔ q.den ∣ b := by
  have hden : (q.den : ℚ) ≠ 0 := Nat.cast_ne_zero.mpr q.den_nz
  constructor
  · rintro ⟨m, hm⟩
    have hint : (b : ℤ) * q.num = m * q.den := by
      have hmul : (b : ℚ) * q.num = m * q.den := by
        rw [← hm, mul_assoc, Rat.mul_den_eq_num]
      exact_mod_cast hmul
    have hdvd : (q.den : ℤ) ∣ b * q.num := ⟨m, by rw [hint, mul_comm]⟩
    have hnat : q.den ∣ b * q.num.natAbs := by
      have h := Int.natAbs_dvd_natAbs.mpr hdvd
      rwa [Int.natAbs_mul, Int.natAbs_natCast, Int.natAbs_natCast] at h
    exact q.reduced.symm.dvd_of_dvd_mul_right hnat
  · rintro ⟨k, rfl⟩
    refine ⟨k * q.num.natAbs, ?_⟩
    have hnum : (q.num.natAbs : ℚ) = q.num := by
      rw [← Int.cast_natCast, Int.natAbs_of_nonneg (Rat.num_nonneg.mpr hq)]
    rw [Nat.cast_mul, Nat.cast_mul, hnum, ← Rat.mul_den_eq_num]
    ring

theorem wholePartials_iff (hpos : Positive rs) (b : ℕ) : WholePartials b rs ↔ wholeUnit rs ∣ b := by
  have hsub {l : List ℚ} (hl : l.Sublist rs) : 0 ≤ l.prod :=
    (prod_pos fun r hr => hpos r (hl.subset hr)).le
  rw [wholeUnit, foldr_lcm_dvd_iff, forall_mem_map]
  simp only [mem_sublists]
  constructor
  · intro h l hl
    obtain ⟨l', hl'⟩ := hl.exists_perm_append
    exact (exists_natCast_eq_mul_iff (hsub hl) b).mp (h l l' hl'.symm)
  · intro h l l' hperm
    -- the ratios of a part, in the order in which the list has them
    obtain ⟨l₀, hl₀, hsublist⟩ := (sublist_append_left l l').subperm.trans hperm.subperm
    rw [← hl₀.prod_eq]
    exact (exists_natCast_eq_mul_iff (hsub hsublist) b).mpr (h l₀ hsublist)

/-! ### Dividing again -/

/-- **Division by a list of ratios**, each quotient truncated. -/
def unscaleAll (n : ℕ) (rs : List ℚ) : ℕ := scaleAll n (rs.map (·⁻¹))

theorem Positive.inv (h : Positive rs) : Positive (rs.map (·⁻¹)) :=
  forall_mem_map.mpr fun r hr => inv_pos.mpr (h r hr)

variable {q : ℕ}

section

variable (hpos : Positive rs)

include hpos

/-- **Dividing a lossless product** leads back, in every order. -/
theorem unscaleAll_mul (h : WholePartials b rs) (hq : (q : ℚ) = b * rs.prod) :
    unscaleAll q rs = b := by
  induction rs generalizing q with
  | nil =>
    rw [prod_nil, mul_one] at hq
    exact Nat.cast_injective hq
  | cons r rs ih =>
    obtain ⟨hr, hrest⟩ := forall_mem_cons.mp hpos
    have hwhole : WholePartials b rs := by
      intro l l' hl
      exact h l (r :: l') (perm_middle.trans (hl.cons r))
    obtain ⟨m, hm⟩ := hwhole rs [] (by rw [append_nil])
    have hstep : scale q r⁻¹ = m := by
      rw [scale, hq, prod_cons, mul_comm r, ← mul_assoc, hm, mul_inv_cancel_right₀ hr.ne',
        Nat.floor_natCast]
    rw [unscaleAll, map_cons, scaleAll_cons, hstep]
    exact ih hrest hwhole hm.symm

/-- **Dividing and multiplying again leads back** only if no quotient on the way was truncated. -/
theorem unscaleAll_exact (h : ⌊(unscaleAll q rs : ℚ) * rs.prod⌋₊ = q) :
    (unscaleAll q rs : ℚ) = q * rs.prod⁻¹ := by
  have hprod := hpos.prod_pos
  refine le_antisymm ?_ ?_
  · rw [prod_inv]
    exact scaleAll_le hpos.inv q
  · have hfloor := Nat.floor_le (mul_nonneg (Nat.cast_nonneg (unscaleAll q rs)) hprod.le)
    rw [h] at hfloor
    rwa [← div_eq_mul_inv, div_le_iff₀ hprod]

/-- **A number leads back to itself** in every order iff its partial quotients are whole. -/
theorem unscale_back_iff (q : ℕ) :
    (∀ o, o.Perm rs → ⌊(unscaleAll q o : ℚ) * rs.prod⌋₊ = q) ↔ wholeUnit (rs.map (·⁻¹)) ∣ q := by
  rw [← wholePartials_iff hpos.inv]
  constructor
  · intro h l l' hl
    have hinv (rs : List ℚ) : (rs.map (·⁻¹)).map (·⁻¹) = rs := by
      rw [map_map]
      exact map_id'' inv_inv rs
    have horder : (l.map (·⁻¹) ++ l'.map (·⁻¹)).Perm rs := by
      have hmap := hl.map (·⁻¹)
      rwa [map_append, hinv] at hmap
    have hexact := unscaleAll_exact (hpos.perm horder) (by
      rw [horder.prod_eq]
      exact h _ horder)
    rw [unscaleAll, prod_inv, map_append, hinv, hinv] at hexact
    have hpos' := hpos.inv.perm hl
    exact ⟨_, (scaleAll_left_eq (fun r hr => hpos' r (mem_append_left l' hr))
      (fun r hr => hpos' r (mem_append_right l hr)) hexact).symm⟩
  · intro h o ho
    have hscaled := scaleAll_add (hpos.perm ho).inv (h.perm (ho.map (·⁻¹))) 0
    rw [add_zero, scaleAll_zero, Nat.cast_zero, add_zero, ← prod_inv, ho.prod_eq] at hscaled
    rw [unscaleAll, hscaled, inv_mul_cancel_right₀ hpos.prod_pos.ne', Nat.floor_natCast]

theorem wholePartials_unscaleAll (h : ∀ o, o.Perm rs → ⌊(unscaleAll q o : ℚ) * rs.prod⌋₊ = q) :
    WholePartials (unscaleAll q rs) rs := by
  have hexact {o : List ℚ} (ho : o.Perm rs) : (unscaleAll q o : ℚ) = q * o.prod⁻¹ := by
    refine unscaleAll_exact (hpos.perm ho) ?_
    rw [ho.prod_eq]
    exact h o ho
  intro l l' hl
  -- the other ratios are divided out first, and what is left then is the partial product
  have hswap : (l' ++ l).Perm rs := perm_append_comm.trans hl
  have hpos' := hpos.perm hswap
  have hleft : Positive l' := fun r hr => hpos' r (mem_append_left l hr)
  have hright : Positive l := fun r hr => hpos' r (mem_append_right l' hr)
  refine ⟨unscaleAll q l', ?_⟩
  have hwhole := hexact hswap
  rw [unscaleAll, prod_inv, map_append] at hwhole
  have hpart := scaleAll_left_eq hleft.inv hright.inv hwhole
  rw [hexact (Perm.refl rs), ← hswap.prod_eq, prod_append, unscaleAll, hpart, ← prod_inv]
  have hl0 := hright.prod_pos.ne'
  have hl0' := hleft.prod_pos.ne'
  field_simp

/-- **Scaling and scaling back** lead back in every order iff what the number has above a multiple
of the unit is lost in every order. -/
theorem rescale_iff (n : ℕ) : ((∀ o, o.Perm rs → scaleAll n o = scaleAll n rs) ∧
        ∀ o, o.Perm rs → ⌊(unscaleAll (scaleAll n rs) o : ℚ) * rs.prod⌋₊ = scaleAll n rs) ↔
      ∀ o, o.Perm rs → n % wholeUnit rs < needed 1 o := by
  constructor
  · rintro ⟨horder, hback⟩ o ho
    have hwhole := wholePartials_unscaleAll hpos hback
    generalize hb : unscaleAll (scaleAll n rs) rs = b at hwhole
    have hscaled : (scaleAll n rs : ℚ) = b * rs.prod := by
      have hexact := unscaleAll_exact hpos (hback rs (Perm.refl rs))
      rw [← hb, hexact, inv_mul_cancel_right₀ hpos.prod_pos.ne']
    have hle : b ≤ n := by
      have h := scaleAll_le hpos n
      rw [hscaled] at h
      exact Nat.cast_le.mp (le_of_mul_le_mul_right h hpos.prod_pos)
    obtain ⟨d, rfl⟩ := Nat.exists_eq_add_of_le hle
    have hlost : scaleAll d o = 0 := by
      have h := scaleAll_add (hpos.perm ho) (hwhole.perm ho) d
      rw [horder o ho, hscaled, ho.prod_eq] at h
      exact Nat.cast_eq_zero.mp (left_eq_add.mp h)
    calc (b + d) % wholeUnit rs = d % wholeUnit rs := by
          obtain ⟨k, rfl⟩ := (wholePartials_iff hpos b).mp hwhole
          exact Nat.mul_add_mod _ _ _
      _ ≤ d := Nat.mod_le _ _
      _ < needed 1 o := (scaleAll_eq_zero_iff (hpos.perm ho) d).mp hlost
  · intro h
    -- the number is a multiple of the unit and a rest that is lost
    have hwhole : WholePartials (wholeUnit rs * (n / wholeUnit rs)) rs :=
      (wholePartials_iff hpos _).mpr (Nat.dvd_mul_right _ _)
    have hscaled {o : List ℚ} (ho : o.Perm rs) :
        (scaleAll n o : ℚ) = (wholeUnit rs * (n / wholeUnit rs) : ℕ) * rs.prod := by
      have hlost := (scaleAll_eq_zero_iff (hpos.perm ho) _).mpr (h o ho)
      have hadd := scaleAll_add (hpos.perm ho) (hwhole.perm ho) (n % wholeUnit rs)
      rwa [Nat.div_add_mod, hlost, Nat.cast_zero, add_zero, ho.prod_eq] at hadd
    refine ⟨fun o ho => ?_, fun o ho => ?_⟩
    · exact Nat.cast_injective ((hscaled ho).trans (hscaled (Perm.refl rs)).symm)
    · have hback : unscaleAll (scaleAll n rs) o = wholeUnit rs * (n / wholeUnit rs) :=
        unscaleAll_mul (hpos.perm ho) (hwhole.perm ho)
          (by rw [hscaled (Perm.refl rs), ho.prod_eq])
      rw [hback, ← hscaled (Perm.refl rs), Nat.floor_natCast]

end

end Scaling

end NomoApi
