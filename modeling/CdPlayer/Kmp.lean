/-
CdPlayer/Kmp.lean

`CD_KmpPatternSearch` (cdif_api.c): the search for the 12-byte sync pattern.

The function allocates a failure table, fills it with one loop and scans
the source with a second one.  Both loops move `matches` back through the
table without advancing, so they are not structural; they terminate
because a table entry is never larger than its index.  That is the field
`le` of `KmpNext`: a table that could send the loops round in circles
cannot be built, and both loops are ordinary recursions on the pair
(cells left, `matches`).

Besides the result the model returns how many source bytes were read, so
that a caller can say which bytes a search touched.

Main results: `cdKmpPatternSearch_spec` (the search returns the first
occurrence and reads up to its end, or reports failure after reading a
source without occurrence) and `cdKmpPatternSearch_bounds` (what a caller
may rely on when it knows nothing about the source).
-/
import CdPlayer.Lib.Occurrence

namespace CdPlayer

open Occurrence

/-! ### The failure table -/

/-- The table `kmpNext`; an entry never exceeds its index. -/
structure KmpNext where
  next : Nat → Nat
  le : ∀ k, next k ≤ k

/-- What `kmalloc` leaves in the table: no entry has been written yet. -/
def KmpNext.fresh : KmpNext := ⟨fun _ => 0, fun k => Nat.zero_le k⟩

/-- `kmpNext[i] = v`. -/
def KmpNext.set (t : KmpNext) (i v : Nat) (h : v ≤ i) : KmpNext where
  next := Function.update t.next i v
  le := by
    intro k
    by_cases hk : k = i
    · subst hk; rw [Function.update_self]; exact h
    · rw [Function.update_of_ne hk]; exact t.le k

@[simp] theorem KmpNext.set_self (t : KmpNext) {i v : Nat} (h : v ≤ i) :
    (t.set i v h).next i = v := Function.update_self ..

theorem KmpNext.set_of_ne (t : KmpNext) {i v k : Nat} (h : v ≤ i) (hk : k ≠ i) :
    (t.set i v h).next k = t.next k := Function.update_of_ne hk ..

/-- Falling back strictly shortens the match. -/
theorem KmpNext.next_pred_lt (t : KmpNext) {k : Nat} (h : 0 < k) : t.next (k - 1) < k :=
  lt_of_le_of_lt (t.le (k - 1)) (by omega)

variable {α : Type*} [DecidableEq α]

/-- First loop: fill the table from index `i` on. -/
def kmpTable (pPattern : Nat → α) (patternLen i matches' : Nat) (h : matches' < i)
    (t : KmpNext) : KmpNext :=
  if i < patternLen then
    if pPattern i = pPattern matches' then
      kmpTable pPattern patternLen (i + 1) (matches' + 1) (by omega)
        (t.set i (matches' + 1) (by omega))
    else if hm : 0 < matches' then
      kmpTable pPattern patternLen i (t.next (matches' - 1))
        (lt_trans (t.next_pred_lt hm) h) t
    else
      kmpTable pPattern patternLen (i + 1) 0 (by omega) (t.set i 0 (by omega))
  else t
termination_by (patternLen - i, matches')
decreasing_by
  · exact Prod.Lex.left _ _ (by omega)
  · exact Prod.Lex.right _ (t.next_pred_lt hm)
  · exact Prod.Lex.left _ _ (by omega)

/-- Second loop: the position of the match, if any, and the number of source
cells read. -/
def kmpScan (pSrcAddr pPattern : Nat → α) (srcLen patternLen : Nat) (t : KmpNext)
    (i matches' : Nat) : Option Nat × Nat :=
  if i < srcLen then
    if pSrcAddr i = pPattern matches' then
      if matches' + 1 = patternLen then
        (some (i + 1 - patternLen), i + 1)
      else
        kmpScan pSrcAddr pPattern srcLen patternLen t (i + 1) (matches' + 1)
    else if hm : 0 < matches' then
      kmpScan pSrcAddr pPattern srcLen patternLen t i (t.next (matches' - 1))
    else
      kmpScan pSrcAddr pPattern srcLen patternLen t (i + 1) 0
  else (none, i)
termination_by (srcLen - i, matches')
decreasing_by
  · exact Prod.Lex.left _ _ (by omega)
  · exact Prod.Lex.right _ (t.next_pred_lt hm)
  · exact Prod.Lex.left _ _ (by omega)

/-- `CD_KmpPatternSearch`, with the number of source bytes it read.
`allocated` says whether `kmalloc` returned memory; if not, the function
returns `CD_FALSE` without looking at the source. -/
def cdKmpPatternSearch (allocated : Bool) (pSrcAddr : Nat → α) (srcLen : Nat)
    (pPattern : Nat → α) (patternLen : Nat) : Int × Nat :=
  if allocated then
    let kmpNext := kmpTable pPattern patternLen 1 0 Nat.one_pos (KmpNext.fresh.set 0 0 le_rfl)
    match kmpScan pSrcAddr pPattern srcLen patternLen kmpNext 0 0 with
    | (some i, read) => (i, read)
    | (none, read) => (-1, read)
  else (-1, 0)

/-! ### The table holds the longest borders -/

/-- Entry `k - 1` is the longest border of the prefix of length `k`, for
every `k` up to `n`. -/
def KmpNext.Correct (t : KmpNext) (p : Nat → α) (n : Nat) : Prop :=
  ∀ k, 0 < k → k ≤ n → LongestBorder p k (t.next (k - 1))

omit [DecidableEq α] in
theorem KmpNext.Correct.set {t : KmpNext} {p : Nat → α} {i v : Nat} (ht : t.Correct p i)
    (h : v ≤ i) (hv : LongestBorder p (i + 1) v) : (t.set i v h).Correct p (i + 1) := by
  intro k hk hki
  rcases Nat.lt_succ_iff_lt_or_eq.mp (Nat.lt_succ_of_le hki) with hlt | rfl
  · rw [t.set_of_ne h (by omega)]
    exact ht k hk (by omega)
  · simpa using hv

/-- The loop extends a correct table to the whole pattern. -/
theorem kmpTable_correct {p : Nat → α} {n i q : Nat} {h : q < i} {t : KmpNext}
    (ht : t.Correct p i) (hc : Candidate p i q) (hin : i ≤ n) :
    (kmpTable p n i q h t).Correct p n := by
  induction i, q, h, t using kmpTable.induct p n with
  | case1 i q h t hi heq ih =>
    -- the cells agree: the candidate grows and settles entry `i`
    rw [kmpTable, if_pos hi, if_pos heq]
    exact ih (ht.set (by omega) (hc.hit heq)) (hc.hit heq).candidate hi
  | case2 i q h t hi hne hm ih =>
    -- fall back to the longest border of the candidate
    rw [kmpTable, if_pos hi, if_neg hne, dif_pos hm]
    exact ih ht (LongestBorder.step_of_ne hc hne (ht q hm (by omega))) hin
  | case3 i q h t hi hne hm ih =>
    obtain rfl : q = 0 := by omega
    rw [kmpTable, if_pos hi, if_neg hne, dif_neg hm]
    exact ih (ht.set (by omega) (hc.miss_zero hne)) (hc.miss_zero hne).candidate hi
  | case4 i q h t hi =>
    rw [kmpTable, if_neg hi]
    obtain rfl : i = n := by omega
    exact ht

/-- The table the function builds for a pattern of length at least one. -/
theorem kmpTable_init_correct (p : Nat → α) {n : Nat} (hn : 1 ≤ n) :
    (kmpTable p n 1 0 Nat.one_pos (KmpNext.fresh.set 0 0 le_rfl)).Correct p n := by
  refine kmpTable_correct (fun k hk hk1 => ?_) Candidate.one hn
  obtain rfl : k = 1 := by omega
  refine ⟨by simpa using Border.zero Nat.one_pos, fun b hb => ?_⟩
  have := hb.1
  omega

/-! ### The scan finds the first occurrence -/

/-- What the scan knows before it reads cell `i` with `q` cells matched. -/
structure ScanInv (p x : Nat → α) (m i q : Nat) : Prop where
  le : q ≤ i
  short : q < m
  agree : Agree p x (i - q) q
  none : ∀ s, s < i - q → ¬ Agree p x s m

omit [DecidableEq α] in
theorem ScanInv.hit {p x : Nat → α} {m i q : Nat} (h : ScanInv p x m i q)
    (heq : x i = p q) : Agree p x (i - q) (q + 1) := by
  refine h.agree.succ ?_
  rw [← heq]
  congr 1
  have := h.le
  omega

omit [DecidableEq α] in
/-- The candidate itself fails when its next cell differs. -/
theorem ScanInv.not_agree {p x : Nat → α} {m i q : Nat} (h : ScanInv p x m i q)
    (hne : x i ≠ p q) : ¬ Agree p x (i - q) m := by
  intro hocc
  refine hne ?_
  rw [← hocc q h.short]
  congr 1
  have := h.le
  omega

omit [DecidableEq α] in
theorem ScanInv.fallback {p x : Nat → α} {m i q q' : Nat} (h : ScanInv p x m i q)
    (hne : x i ≠ p q) (hq' : LongestBorder p q q') : ScanInv p x m i q' := by
  have hle := h.le
  have hlt := hq'.border.1
  refine ⟨by omega, by have := h.short; omega, ?_, fun s hs => ?_⟩
  · have hfb := h.agree.fallback hq'.border
    rwa [Nat.sub_add_cancel hle] at hfb
  · -- starts before the old candidate, the candidate itself, starts in between
    rcases Nat.lt_trichotomy s (i - q) with hlt' | rfl | hgt
    · exact h.none s hlt'
    · exact h.not_agree hne
    · exact no_agree_between h.agree hq' hgt (by omega) h.short.le

omit [DecidableEq α] in
theorem ScanInv.skip {p x : Nat → α} {m i : Nat} (h : ScanInv p x m i 0)
    (hne : x i ≠ p 0) : ScanInv p x m (i + 1) 0 := by
  refine ⟨Nat.zero_le _, h.short, Agree.zero _ _ _, fun s hs => ?_⟩
  rcases Nat.lt_succ_iff_lt_or_eq.mp hs with hlt | rfl
  · exact h.none s hlt
  · exact h.not_agree hne

omit [DecidableEq α] in
theorem ScanInv.advance {p x : Nat → α} {m i q : Nat} (h : ScanInv p x m i q)
    (heq : x i = p q) (hm : q + 1 ≠ m) : ScanInv p x m (i + 1) (q + 1) := by
  have hq := h.short
  refine ⟨by have := h.le; omega, by omega, ?_, ?_⟩
  · rw [Nat.add_sub_add_right]; exact h.hit heq
  · rw [Nat.add_sub_add_right]; exact h.none

/-- Specification of the scan: a reported position is the first occurrence
and the scan stopped right behind it; otherwise nothing occurs within the
source and exactly the source was read. -/
theorem kmpScan_spec {x p : Nat → α} {len m i q : Nat} {t : KmpNext}
    (ht : t.Correct p m) (h : ScanInv p x m i q) (hi : i ≤ len) :
    match kmpScan x p len m t i q with
    | (some r, read) => FirstAt p m x len r ∧ read = r + m
    | (none, read) => (∀ s, s + m ≤ len → ¬ Agree p x s m) ∧ read = len := by
  induction i, q using kmpScan.induct x p len m t with
  | case1 i q hlt heq hm =>
    rw [kmpScan, if_pos hlt, if_pos heq, if_pos hm]
    have hle := h.le
    have hstart : i + 1 - m = i - q := by omega
    refine ⟨⟨by omega, ?_, ?_⟩, by omega⟩
    · rw [hstart, ← hm]; exact h.hit heq
    · rw [hstart]; exact h.none
  | case2 i q hlt heq hm ih =>
    rw [kmpScan, if_pos hlt, if_pos heq, if_neg hm]
    exact ih (h.advance heq hm) hlt
  -- a mismatch falls back along the table, without reading on
  | case3 i q hlt hne hq ih =>
    rw [kmpScan, if_pos hlt, if_neg hne, dif_pos hq]
    exact ih (h.fallback hne (ht q hq h.short.le)) hi
  | case4 i q hlt hne hq ih =>
    obtain rfl : q = 0 := by omega
    rw [kmpScan, if_pos hlt, if_neg hne, dif_neg hq]
    exact ih (h.skip hne) hlt
  | case5 i q hlt =>
    rw [kmpScan, if_neg hlt]
    have hle := h.le
    have hq := h.short
    exact ⟨fun s hs => h.none s (by omega), by omega⟩

/-! ### The function -/

omit [DecidableEq α] in
theorem ScanInv.init (p x : Nat → α) {m : Nat} (hm : 1 ≤ m) : ScanInv p x m 0 0 :=
  ⟨le_rfl, hm, Agree.zero _ _ _, fun _ hs => absurd hs (by omega)⟩

/-- **The search is exact**, and reads exactly what it has to: up to the end
of the match it reports, or the whole source. -/
theorem cdKmpPatternSearch_spec (x p : Nat → α) (len : Nat) {m : Nat} (hm : 1 ≤ m) :
    (∃ r, FirstAt p m x len r ∧ cdKmpPatternSearch true x len p m = ((r : Int), r + m)) ∨
    ((∀ s, s + m ≤ len → ¬ Agree p x s m) ∧ cdKmpPatternSearch true x len p m = (-1, len)) := by
  have hspec := kmpScan_spec (kmpTable_init_correct p hm) (ScanInv.init p x hm) (Nat.zero_le len)
  unfold cdKmpPatternSearch
  rw [if_pos rfl]
  simp only
  generalize kmpScan x p len m _ 0 0 = res at hspec ⊢
  rcases res with ⟨- | r, read⟩
  · exact .inr ⟨hspec.1, by rw [hspec.2]⟩
  · exact .inl ⟨r, hspec.1, by rw [hspec.2]⟩

theorem cdKmpPatternSearch_of_firstAt {x p : Nat → α} {len m r : Nat} (hm : 1 ≤ m)
    (h : FirstAt p m x len r) : cdKmpPatternSearch true x len p m = ((r : Int), r + m) := by
  rcases cdKmpPatternSearch_spec x p len hm with ⟨r', hr', heq⟩ | ⟨hnone, -⟩
  · rw [heq, h.unique hr']
  · exact absurd h.agree (hnone r h.fits)

theorem cdKmpPatternSearch_of_none {x p : Nat → α} {len m : Nat} (hm : 1 ≤ m)
    (h : ∀ s, s + m ≤ len → ¬ Agree p x s m) :
    cdKmpPatternSearch true x len p m = (-1, len) := by
  rcases cdKmpPatternSearch_spec x p len hm with ⟨r, hr, -⟩ | ⟨-, heq⟩
  · exact absurd hr.agree (h r hr.fits)
  · exact heq

/-- Whatever the source holds: a non-negative result lies inside it. -/
theorem cdKmpPatternSearch_bounds (ok : Bool) (x p : Nat → α) (len : Nat) {m : Nat}
    (hm : 1 ≤ m) :
    (cdKmpPatternSearch ok x len p m).1 = -1 ∧ (cdKmpPatternSearch ok x len p m).2 ≤ len ∨
    0 ≤ (cdKmpPatternSearch ok x len p m).1 ∧
      (cdKmpPatternSearch ok x len p m).1 + m ≤ len ∧
      ((cdKmpPatternSearch ok x len p m).2 : Int) = (cdKmpPatternSearch ok x len p m).1 + m := by
  rcases ok with - | -
  · exact .inl ⟨rfl, Nat.zero_le _⟩
  · rcases cdKmpPatternSearch_spec x p len hm with ⟨r, hr, heq⟩ | ⟨-, heq⟩
    · have := hr.fits
      rw [heq]
      exact .inr ⟨by simp, by simp only; omega, by simp⟩
    · rw [heq]
      exact .inl ⟨rfl, le_rfl⟩

/-! ### What the search touches

The same loops once more, recording what they access: source cells, pattern
cells and entries of the table.  `kmpTableLog_fst` and `kmpScanLog_fst` say
that they compute the same values. -/

/-- An access of `CD_KmpPatternSearch`. -/
inductive KmpAccess
  | source (i : Nat)
  | pattern (i : Nat)
  /-- An entry of `kmpNext`, read or written. -/
  | table (i : Nat)

/-- The access lies within its array; the table has 1024 bytes. -/
def KmpAccess.InBounds (srcLen patternLen : Nat) : KmpAccess → Prop
  | .source i => i < srcLen
  | .pattern i => i < patternLen
  | .table i => i < patternLen ∧ 4 * i + 4 ≤ 1024

/-- First loop, with its accesses. -/
def kmpTableLog (pPattern : Nat → α) (patternLen i matches' : Nat) (h : matches' < i)
    (t : KmpNext) : KmpNext × List KmpAccess :=
  if i < patternLen then
    if pPattern i = pPattern matches' then
      let r := kmpTableLog pPattern patternLen (i + 1) (matches' + 1) (by omega)
        (t.set i (matches' + 1) (by omega))
      (r.1, .pattern i :: .pattern matches' :: .table i :: r.2)
    else if hm : 0 < matches' then
      let r := kmpTableLog pPattern patternLen i (t.next (matches' - 1))
        (lt_trans (t.next_pred_lt hm) h) t
      (r.1, .pattern i :: .pattern matches' :: .table (matches' - 1) :: r.2)
    else
      let r := kmpTableLog pPattern patternLen (i + 1) 0 (by omega) (t.set i 0 (by omega))
      (r.1, .pattern i :: .pattern matches' :: .table i :: r.2)
  else (t, [])
termination_by (patternLen - i, matches')
decreasing_by
  · exact Prod.Lex.left _ _ (by omega)
  · exact Prod.Lex.right _ (t.next_pred_lt hm)
  · exact Prod.Lex.left _ _ (by omega)

/-- Second loop, with its accesses. -/
def kmpScanLog (pSrcAddr pPattern : Nat → α) (srcLen patternLen : Nat) (t : KmpNext)
    (i matches' : Nat) : Option Nat × List KmpAccess :=
  if i < srcLen then
    if pSrcAddr i = pPattern matches' then
      if matches' + 1 = patternLen then
        (some (i + 1 - patternLen), [.source i, .pattern matches'])
      else
        let r := kmpScanLog pSrcAddr pPattern srcLen patternLen t (i + 1) (matches' + 1)
        (r.1, .source i :: .pattern matches' :: r.2)
    else if hm : 0 < matches' then
      let r := kmpScanLog pSrcAddr pPattern srcLen patternLen t i (t.next (matches' - 1))
      (r.1, .source i :: .pattern matches' :: .table (matches' - 1) :: r.2)
    else
      let r := kmpScanLog pSrcAddr pPattern srcLen patternLen t (i + 1) 0
      (r.1, .source i :: .pattern matches' :: r.2)
  else (none, [])
termination_by (srcLen - i, matches')
decreasing_by
  · exact Prod.Lex.left _ _ (by omega)
  · exact Prod.Lex.right _ (t.next_pred_lt hm)
  · exact Prod.Lex.left _ _ (by omega)

/-- `CD_KmpPatternSearch` with its accesses, `kmpNext[0] = 0` the first. -/
def cdKmpPatternSearchLog (allocated : Bool) (pSrcAddr : Nat → α) (srcLen : Nat)
    (pPattern : Nat → α) (patternLen : Nat) : Int × List KmpAccess :=
  if allocated then
    let (kmpNext, l) :=
      kmpTableLog pPattern patternLen 1 0 Nat.one_pos (KmpNext.fresh.set 0 0 le_rfl)
    match kmpScanLog pSrcAddr pPattern srcLen patternLen kmpNext 0 0 with
    | (some i, l') => (i, .table 0 :: l ++ l')
    | (none, l') => (-1, .table 0 :: l ++ l')
  else (-1, [])

theorem kmpTableLog_fst (p : Nat → α) (n i q : Nat) (h : q < i) (t : KmpNext) :
    (kmpTableLog p n i q h t).1 = kmpTable p n i q h t := by
  induction i, q, h, t using kmpTable.induct p n with
  | case1 i q h t hi heq ih =>
    rw [kmpTable, kmpTableLog, if_pos hi, if_pos hi, if_pos heq, if_pos heq]
    exact ih
  | case2 i q h t hi hne hm ih =>
    rw [kmpTable, kmpTableLog, if_pos hi, if_pos hi, if_neg hne, if_neg hne, dif_pos hm,
      dif_pos hm]
    exact ih
  | case3 i q h t hi hne hm ih =>
    rw [kmpTable, kmpTableLog, if_pos hi, if_pos hi, if_neg hne, if_neg hne, dif_neg hm,
      dif_neg hm]
    exact ih
  | case4 i q h t hi =>
    rw [kmpTable, kmpTableLog, if_neg hi, if_neg hi]

theorem kmpScanLog_fst (x p : Nat → α) (len m : Nat) (t : KmpNext) (i q : Nat) :
    (kmpScanLog x p len m t i q).1 = (kmpScan x p len m t i q).1 := by
  induction i, q using kmpScan.induct x p len m t with
  | case1 i q hlt heq hm =>
    rw [kmpScan, kmpScanLog, if_pos hlt, if_pos hlt, if_pos heq, if_pos heq, if_pos hm, if_pos hm]
  | case2 i q hlt heq hm ih =>
    rw [kmpScan, kmpScanLog, if_pos hlt, if_pos hlt, if_pos heq, if_pos heq, if_neg hm, if_neg hm]
    exact ih
  | case3 i q hlt hne hq ih =>
    rw [kmpScan, kmpScanLog, if_pos hlt, if_pos hlt, if_neg hne, if_neg hne, dif_pos hq,
      dif_pos hq]
    exact ih
  | case4 i q hlt hne hq ih =>
    rw [kmpScan, kmpScanLog, if_pos hlt, if_pos hlt, if_neg hne, if_neg hne, dif_neg hq,
      dif_neg hq]
    exact ih
  | case5 i q hlt =>
    rw [kmpScan, kmpScanLog, if_neg hlt, if_neg hlt]

theorem cdKmpPatternSearchLog_fst (ok : Bool) (x p : Nat → α) (len m : Nat) :
    (cdKmpPatternSearchLog ok x len p m).1 = (cdKmpPatternSearch ok x len p m).1 := by
  unfold cdKmpPatternSearchLog cdKmpPatternSearch
  rcases ok with - | -
  · rfl
  · have htable := kmpTableLog_fst p m 1 0 Nat.one_pos (KmpNext.fresh.set 0 0 le_rfl)
    rcases hlog : kmpTableLog p m 1 0 Nat.one_pos (KmpNext.fresh.set 0 0 le_rfl) with ⟨t, l⟩
    rw [hlog] at htable
    have hscan := kmpScanLog_fst x p len m t 0 0
    simp only [if_pos, ← htable]
    generalize kmpScanLog x p len m t 0 0 = a at hscan ⊢
    generalize kmpScan x p len m t 0 0 = b at hscan ⊢
    rcases a with ⟨- | i, l'⟩ <;> rcases b with ⟨- | j, read⟩ <;> simp_all

/-- Accesses in front of accesses in bounds. -/
def AllInBounds (len m : Nat) (l : List KmpAccess) : Prop := ∀ a ∈ l, a.InBounds len m

theorem AllInBounds.cons {len m : Nat} {a : KmpAccess} {l : List KmpAccess}
    (ha : a.InBounds len m) (h : AllInBounds len m l) : AllInBounds len m (a :: l) := by
  rintro b hb
  rcases List.mem_cons.mp hb with rfl | hb
  · exact ha
  · exact h b hb

theorem AllInBounds.nil (len m : Nat) : AllInBounds len m [] :=
  fun _ h => absurd h List.not_mem_nil

theorem AllInBounds.append {len m : Nat} {l l' : List KmpAccess} (h : AllInBounds len m l)
    (h' : AllInBounds len m l') : AllInBounds len m (l ++ l') := by
  rintro a ha
  rcases List.mem_append.mp ha with ha | ha
  · exact h a ha
  · exact h' a ha

/-- The first loop stays within pattern and table. -/
theorem kmpTableLog_inBounds (p : Nat → α) {n : Nat} (hn : n ≤ 256) (len i q : Nat) (h : q < i)
    (t : KmpNext) : AllInBounds len n (kmpTableLog p n i q h t).2 := by
  have hentry : ∀ k, k < n → KmpAccess.InBounds len n (.table k) := fun k hk => ⟨hk, by omega⟩
  induction i, q, h, t using kmpTable.induct p n with
  | case1 i q h t hi heq ih =>
    rw [kmpTableLog, if_pos hi, if_pos heq]
    exact .cons hi (.cons (lt_trans h hi) (.cons (hentry i hi) ih))
  | case2 i q h t hi hne hm ih =>
    rw [kmpTableLog, if_pos hi, if_neg hne, dif_pos hm]
    exact .cons hi (.cons (lt_trans h hi) (.cons (hentry _ (by omega)) ih))
  | case3 i q h t hi hne hm ih =>
    rw [kmpTableLog, if_pos hi, if_neg hne, dif_neg hm]
    exact .cons hi (.cons (lt_trans h hi) (.cons (hentry i hi) ih))
  | case4 i q h t hi =>
    rw [kmpTableLog, if_neg hi]
    exact .nil len n

/-- The second loop stays within source, pattern and table: fewer cells are
matched than the pattern has. -/
theorem kmpScanLog_inBounds (x p : Nat → α) (len : Nat) {m : Nat} (hm : m ≤ 256) (t : KmpNext)
    (i q : Nat) (hq : q < m) : AllInBounds len m (kmpScanLog x p len m t i q).2 := by
  induction i, q using kmpScan.induct x p len m t with
  | case1 i q hlt heq hlast =>
    rw [kmpScanLog, if_pos hlt, if_pos heq, if_pos hlast]
    exact .cons hlt (.cons hq (.nil len m))
  | case2 i q hlt heq hlast ih =>
    rw [kmpScanLog, if_pos hlt, if_pos heq, if_neg hlast]
    exact .cons hlt (.cons hq (ih (by omega)))
  | case3 i q hlt hne hpos ih =>
    rw [kmpScanLog, if_pos hlt, if_neg hne, dif_pos hpos]
    exact .cons hlt (.cons hq (.cons ⟨by omega, by omega⟩
      (ih (lt_trans (t.next_pred_lt hpos) hq))))
  | case4 i q hlt hne hpos ih =>
    rw [kmpScanLog, if_pos hlt, if_neg hne, dif_neg hpos]
    exact .cons hlt (.cons hq (ih (by omega)))
  | case5 i q hlt =>
    rw [kmpScanLog, if_neg hlt]
    exact .nil len m

theorem cdKmpPatternSearchLog_inBounds (x p : Nat → α) (len : Nat) {m : Nat} (hm : 1 ≤ m)
    (hm' : m ≤ 256) : AllInBounds len m (cdKmpPatternSearchLog true x len p m).2 := by
  have hfirst : KmpAccess.InBounds len m (.table 0) := ⟨hm, by decide⟩
  have htable := kmpTableLog_inBounds p hm' len 1 0 Nat.one_pos (KmpNext.fresh.set 0 0 le_rfl)
  unfold cdKmpPatternSearchLog
  rw [if_pos rfl]
  generalize kmpTableLog p m 1 0 Nat.one_pos (KmpNext.fresh.set 0 0 le_rfl) = table at htable ⊢
  have hscan := kmpScanLog_inBounds x p len hm' table.1 0 0 hm
  simp only
  generalize kmpScanLog x p len m table.1 0 0 = scan at hscan ⊢
  rcases scan with ⟨- | i, l'⟩
  · exact (htable.cons hfirst).append hscan
  · exact (htable.cons hfirst).append hscan

/-- **`CD_KmpPatternSearch` returns the first occurrence**, or -1 if there is
none, and stays within its three arrays. -/
theorem cdKmpPatternSearch_first (x p : Nat → α) (len m : Nat) (hm : 1 ≤ m) (hm' : m ≤ 256) :
    (cdKmpPatternSearchLog true x len p m).1 = (cdKmpPatternSearch true x len p m).1 ∧
    (∀ a ∈ (cdKmpPatternSearchLog true x len p m).2, a.InBounds len m) ∧
    ((∃ i : Nat, (cdKmpPatternSearch true x len p m).1 = i ∧ i + m ≤ len ∧
        (∀ j < m, x (i + j) = p j) ∧ ∀ k < i, ∃ j < m, x (k + j) ≠ p j) ∨
      (cdKmpPatternSearch true x len p m).1 = -1 ∧
        ∀ i, i + m ≤ len → ∃ j < m, x (i + j) ≠ p j) := by
  have hmiss : ∀ s, ¬ Agree p x s m → ∃ j < m, x (s + j) ≠ p j := by
    intro s h
    by_contra hnone
    exact h fun j hj => by_contra fun hne => hnone ⟨j, hj, hne⟩
  refine ⟨cdKmpPatternSearchLog_fst true x p len m, cdKmpPatternSearchLog_inBounds x p len hm hm',
    ?_⟩
  rcases cdKmpPatternSearch_spec x p len hm with ⟨r, hr, heq⟩ | ⟨hnone, heq⟩
  · refine .inl ⟨r, by rw [heq], hr.fits, fun j hj => hr.agree j hj, fun k hk => ?_⟩
    exact hmiss k (hr.least k hk)
  · exact .inr ⟨by rw [heq], fun i hi => hmiss i (hnone i hi)⟩

/-- Three cells `0xFF` behind one that is not. -/
theorem cdKmpPatternSearch_first_run :
    (cdKmpPatternSearch true (fun i => if i = 1 then (0 : UInt8) else 0xFF) 8
      (fun _ => 0xFF) 3).1 = 2 := by
  obtain ⟨-, -, ⟨i, hres, hfits, hocc, hfirst⟩ | ⟨-, hnone⟩⟩ :=
    cdKmpPatternSearch_first (fun i => if i = 1 then (0 : UInt8) else 0xFF) (fun _ => 0xFF) 8 3
      (by decide) (by decide)
  · have hi : i = 2 := by
      rcases Nat.lt_trichotomy i 2 with hlt | heq | hgt
      · have hmiss := hocc (1 - i) (by omega)
        rw [if_pos (show i + (1 - i) = 1 by omega)] at hmiss
        exact absurd hmiss (by decide)
      · exact heq
      · obtain ⟨j, -, hne⟩ := hfirst 2 hgt
        exact absurd (if_neg (by omega)) hne
    rw [hres, hi]
    rfl
  · obtain ⟨j, -, hne⟩ := hnone 2 (by decide)
    exact absurd (if_neg (by omega)) hne

end CdPlayer
