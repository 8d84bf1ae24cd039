import Mathlib.Tactic.GCongr
import Mathlib.Tactic.Linarith
import LlmStore.Billing.Invoices

/-!
# Prices of requests in a row

`estimate_request_cost` prices the tokens by which a request takes the used tokens further over the included ones, the
marginal overage. Over the requests of a month these numbers telescope to the overage of the total, which
`build_invoice_preview` prices at once, so the two prices differ by roundings only (`marginal_costs_telescope`).
-/

namespace LlmStore.Billing

/-! ## Rounding -/

theorem quantize_neg (x : ℚ) : quantize (-x) = -quantize x := by
  rcases lt_trichotomy x 0 with hx | rfl | hx
  · rw [quantize_of_nonneg (by linarith : 0 ≤ -x), quantize, if_neg (not_le.mpr hx), neg_neg]
  · rw [neg_zero, quantize_zero, neg_zero]
  · rw [quantize_of_nonneg hx.le, quantize, if_neg (by linarith : ¬ 0 ≤ -x), neg_neg]

theorem quantize_nonneg {x : ℚ} (hx : 0 ≤ x) : 0 ≤ quantize x := by
  have hfloor : (0 : ℤ) ≤ ⌊x * 1000000 + 1 / 2⌋ := Int.floor_nonneg.mpr (by linarith)
  have hcast : (0 : ℚ) ≤ ⌊x * 1000000 + 1 / 2⌋ := by exact_mod_cast hfloor
  rw [quantize_of_nonneg hx]
  exact div_nonneg hcast (by norm_num)

theorem quantize_le_quantize {x y : ℚ} (hx : 0 ≤ x) (h : x ≤ y) : quantize x ≤ quantize y := by
  rw [quantize_of_nonneg hx, quantize_of_nonneg (hx.trans h)]
  gcongr

/-- A rounded amount is off by half a millionth at most. -/
theorem abs_quantize_sub_le (x : ℚ) : |quantize x - x| ≤ 1 / 2000000 := by
  have hnonneg : ∀ y : ℚ, 0 ≤ y → |quantize y - y| ≤ 1 / 2000000 := by
    intro y hy
    have hle := Int.floor_le (y * 1000000 + 1 / 2)
    have hlt := Int.lt_floor_add_one (y * 1000000 + 1 / 2)
    rw [quantize_of_nonneg hy, abs_le]
    constructor <;> linarith
  rcases le_total 0 x with hx | hx
  · exact hnonneg x hx
  · have hneg : quantize x - x = -(quantize (-x) - -x) := by
      rw [quantize_neg]
      ring
    rw [hneg, abs_neg]
    exact hnonneg (-x) (by linarith)

/-- The sum of rounded amounts is off the rounded sum by half a millionth for each of them and one more. -/
theorem abs_sum_quantize_sub_le (amounts : List ℚ) :
    |(amounts.map quantize).sum - quantize amounts.sum| ≤ (amounts.length + 1) * (1 / 2000000) := by
  have hsum : |(amounts.map quantize).sum - amounts.sum| ≤ amounts.length * (1 / 2000000) := by
    induction amounts with
    | nil => simp
    | cons x xs ih =>
      have hx := abs_quantize_sub_le x
      have hadd := abs_add_le (quantize x - x) ((xs.map quantize).sum - xs.sum)
      have hsplit : ((x :: xs).map quantize).sum - (x :: xs).sum =
          (quantize x - x) + ((xs.map quantize).sum - xs.sum) := by
        rw [List.map_cons, List.sum_cons, List.sum_cons]
        ring
      rw [hsplit, List.length_cons]
      push_cast
      linarith
  have htotal := abs_quantize_sub_le amounts.sum
  rw [abs_sub_comm] at htotal
  calc |(amounts.map quantize).sum - quantize amounts.sum|
      = |((amounts.map quantize).sum - amounts.sum) + (amounts.sum - quantize amounts.sum)| := by
        rw [sub_add_sub_cancel]
    _ ≤ |(amounts.map quantize).sum - amounts.sum| + |amounts.sum - quantize amounts.sum| := abs_add_le _ _
    _ ≤ amounts.length * (1 / 2000000) + 1 / 2000000 := add_le_add hsum htotal
    _ = (amounts.length + 1) * (1 / 2000000) := by ring

/-! ## The marginal overage -/

/-- `marginal_overage_tokens` of `estimate_request_cost`. -/
def marginalOverageTokens (usedBefore requestTokens included : ℤ) : ℤ :=
  max (max (usedBefore + requestTokens - included) 0 - max (usedBefore - included) 0) 0

/-- The price of some tokens, before it is rounded. -/
def priceOf (pricePer1k : ℚ) (tokens : ℤ) : ℚ := tokens / 1000 * pricePer1k

/-- The marginal overages of requests handled one after another. -/
def marginalOverages (included : ℤ) : ℤ → List ℤ → List ℤ
  | _, [] => []
  | usedBefore, n :: sizes =>
    marginalOverageTokens usedBefore n included :: marginalOverages included (usedBefore + n) sizes

/-- Their prices. -/
def requestCosts (included : ℤ) (pricePer1k : ℚ) : ℤ → List ℤ → List ℚ
  | _, [] => []
  | usedBefore, n :: sizes =>
    estimateRequestCost usedBefore n included pricePer1k :: requestCosts included pricePer1k (usedBefore + n) sizes

theorem marginalOverageTokens_nonneg (usedBefore requestTokens included : ℤ) :
    0 ≤ marginalOverageTokens usedBefore requestTokens included := le_max_right _ _

theorem marginalOverageTokens_mono {requestTokens requestTokens' : ℤ} (h : requestTokens ≤ requestTokens')
    (usedBefore included : ℤ) :
    marginalOverageTokens usedBefore requestTokens included ≤
      marginalOverageTokens usedBefore requestTokens' included := by
  unfold marginalOverageTokens
  omega

theorem priceOf_nonneg {p : ℚ} (hp : 0 ≤ p) {n : ℤ} (hn : 0 ≤ n) : 0 ≤ priceOf p n :=
  mul_nonneg (div_nonneg (by exact_mod_cast hn) (by norm_num)) hp

theorem priceOf_mono {p : ℚ} (hp : 0 ≤ p) {n n' : ℤ} (h : n ≤ n') : priceOf p n ≤ priceOf p n' := by
  have hcast : (n : ℚ) ≤ n' := by exact_mod_cast h
  unfold priceOf
  gcongr

theorem estimateRequestCost_eq (usedBefore requestTokens included : ℤ) (p : ℚ) :
    estimateRequestCost usedBefore requestTokens included p =
      quantize (priceOf p (marginalOverageTokens usedBefore requestTokens included)) := by
  have hnonneg := marginalOverageTokens_nonneg usedBefore requestTokens included
  show (if marginalOverageTokens usedBefore requestTokens included ≤ 0 then 0
    else quantize (priceOf p (marginalOverageTokens usedBefore requestTokens included))) = _
  split_ifs with hle
  · rw [le_antisymm hle hnonneg, priceOf, Int.cast_zero, zero_div, zero_mul, quantize_zero]
  · rfl

theorem overageCost_eq (plan : EffectivePlan) (used : ℤ) : (buildInvoicePreview plan used).overageCost =
    quantize (priceOf plan.overagePricePer1kTokens (max (used - plan.monthlyTokenQuota) 0)) := rfl

theorem requestCosts_eq (included : ℤ) (p : ℚ) (sizes : List ℤ) : ∀ usedBefore,
    requestCosts included p usedBefore sizes =
      ((marginalOverages included usedBefore sizes).map (priceOf p)).map quantize := by
  induction sizes with
  | nil => exact fun _ => rfl
  | cons n sizes ih =>
    intro usedBefore
    rw [requestCosts, marginalOverages, ih, estimateRequestCost_eq, List.map_cons, List.map_cons]

/-- The marginal overages telescope. -/
theorem sum_marginalOverages (included : ℤ) {sizes : List ℤ} (hsizes : ∀ n ∈ sizes, 0 ≤ n) : ∀ usedBefore,
    (marginalOverages included usedBefore sizes).sum =
      max (usedBefore + sizes.sum - included) 0 - max (usedBefore - included) 0 := by
  induction sizes with
  | nil => intro usedBefore; simp [marginalOverages]
  | cons n sizes ih =>
    intro usedBefore
    have hn := hsizes n (by simp)
    rw [marginalOverages, List.sum_cons, ih (fun m hm => hsizes m (by simp [hm])), List.sum_cons]
    unfold marginalOverageTokens
    omega

theorem sum_priceOf (p : ℚ) (tokens : List ℤ) : (tokens.map (priceOf p)).sum = priceOf p tokens.sum := by
  induction tokens with
  | nil => simp [priceOf]
  | cons n tokens ih =>
    rw [List.map_cons, List.sum_cons, ih, List.sum_cons]
    unfold priceOf
    push_cast
    ring

theorem length_marginalOverages (included : ℤ) (sizes : List ℤ) : ∀ usedBefore,
    (marginalOverages included usedBefore sizes).length = sizes.length := by
  induction sizes with
  | nil => exact fun _ => rfl
  | cons n sizes ih => exact fun usedBefore => congrArg (· + 1) (ih (usedBefore + n))

theorem requestCosts_append (included : ℤ) (p : ℚ) (before after : List ℤ) : ∀ usedBefore,
    requestCosts included p usedBefore (before ++ after) =
      requestCosts included p usedBefore before ++ requestCosts included p (usedBefore + before.sum) after := by
  induction before with
  | nil => intro usedBefore; simp [requestCosts]
  | cons n before ih =>
    intro usedBefore
    rw [List.cons_append, requestCosts, requestCosts, ih, List.sum_cons, add_assoc, List.cons_append]

/-- **Marginal prices telescope**: the marginal overages of requests add up to the overage of their total, no request
costs less than nothing or less for being larger, and the costs differ from the overage cost of the total by half a
millionth for each request and one more at most. -/
theorem marginal_costs_telescope (plan : EffectivePlan) (hquota : 0 ≤ plan.monthlyTokenQuota)
    (hprice : 0 ≤ plan.overagePricePer1kTokens) (sizes : List ℤ) (hsizes : ∀ n ∈ sizes, 0 ≤ n) :
    (marginalOverages plan.monthlyTokenQuota 0 sizes).sum = max (sizes.sum - plan.monthlyTokenQuota) 0 ∧
      (∀ before n after, sizes = before ++ n :: after →
        (requestCosts plan.monthlyTokenQuota plan.overagePricePer1kTokens 0 sizes)[before.length]? =
            some (estimateRequestCost before.sum n plan.monthlyTokenQuota plan.overagePricePer1kTokens) ∧
          0 ≤ estimateRequestCost before.sum n plan.monthlyTokenQuota plan.overagePricePer1kTokens ∧
          ∀ n', n ≤ n' → estimateRequestCost before.sum n plan.monthlyTokenQuota plan.overagePricePer1kTokens ≤
            estimateRequestCost before.sum n' plan.monthlyTokenQuota plan.overagePricePer1kTokens) ∧
      |(requestCosts plan.monthlyTokenQuota plan.overagePricePer1kTokens 0 sizes).sum -
          (buildInvoicePreview plan sizes.sum).overageCost| ≤ (sizes.length + 1) * 0.0000005 := by
  have hsum : (marginalOverages plan.monthlyTokenQuota 0 sizes).sum = max (sizes.sum - plan.monthlyTokenQuota) 0 := by
    rw [sum_marginalOverages _ hsizes]
    omega
  refine ⟨hsum, ?_, ?_⟩
  · rintro before n after rfl
    refine ⟨?_, ?_, fun n' hn' => ?_⟩
    · have hlength : (requestCosts plan.monthlyTokenQuota plan.overagePricePer1kTokens 0 before).length =
          before.length := by
        rw [requestCosts_eq, List.length_map, List.length_map, length_marginalOverages]
      rw [requestCosts_append, ← hlength, List.getElem?_append_right le_rfl, Nat.sub_self, requestCosts, zero_add,
        List.getElem?_cons_zero]
    · rw [estimateRequestCost_eq]
      exact quantize_nonneg (priceOf_nonneg hprice (marginalOverageTokens_nonneg _ _ _))
    · rw [estimateRequestCost_eq, estimateRequestCost_eq]
      exact quantize_le_quantize (priceOf_nonneg hprice (marginalOverageTokens_nonneg _ _ _))
        (priceOf_mono hprice (marginalOverageTokens_mono hn' _ _))
  · have hround := abs_sum_quantize_sub_le
      ((marginalOverages plan.monthlyTokenQuota 0 sizes).map (priceOf plan.overagePricePer1kTokens))
    rw [← requestCosts_eq, sum_priceOf, hsum, List.length_map, length_marginalOverages] at hround
    rw [overageCost_eq]
    refine hround.trans (le_of_eq ?_)
    norm_num

theorem marginal_costs_telescope_three :
    let plan : EffectivePlan := ⟨10, 0, 1 / 25, "USD"⟩
    |(requestCosts 10 (1 / 25) 0 [8, 5, 7]).sum - (buildInvoicePreview plan 20).overageCost| ≤ (3 + 1) * 0.0000005 :=
  (marginal_costs_telescope ⟨10, 0, 1 / 25, "USD"⟩ (by norm_num) (by norm_num) [8, 5, 7] (by decide)).2.2

end LlmStore.Billing
