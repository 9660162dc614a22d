/-
CdPlayer/Ending.lean

A call that stays on its data ends.

`CD_DescrambleSector` has no counter for its searches.  A header before
`goMSF` is passed over, and the call goes on to search, however often that
has happened; what limits the searches is the data: each one that does not
read again moves the scan pointer on by the user data of a sector at least
(`searchLbnStep_strides`).  A fetch has room for 244 of them
(`Scan.searchesLeft`), and a call for `n` sectors fetches at most `3 n + 4`
times.

Main result: `call_ends`, that after as many jumps a call has returned, its
`CD_ReadData` does not return, or it has left the data that it was given.
-/
import CdPlayer.Ejected
import CdPlayer.Margin
import CdPlayer.Overrun
import CdPlayer.Trailing

namespace CdPlayer

open Run

variable {env : Env} {codec : Codec} {fuel startAddr n : Nat} {s t d : Scan} {w : World}

/-! ### A search moves on -/

/-- A header that is not the one wanted. -/
theorem Unwanted.strides (h : Unwanted env d t) (hlabel : t.label = .searchLbn) :
    d.psCDBuff + 2048 ≤ t.psCDBuff := by
  cases h with
  | gaveUp => cases hlabel
  | again => cases hlabel
  | passed u hu k hk =>
    have hsame : u.psCDBuff = d.psCDBuff := by rcases hu with rfl | rfl <;> rfl
    show d.psCDBuff + 2048 ≤ u.psCDBuff + k
    rcases hk with rfl | ⟨m, hm, rfl, -⟩
    · rw [hsame]
      simp only [userSectorSize]
      omega
    · omega

/-- The sector wanted. -/
theorem deliverStep_strides (raw : Nat → Cell) (lmode : UInt8)
    (hlabel : (deliverStep env codec startAddr n raw lmode d).label = .searchLbn) :
    d.psCDBuff + 2048 ≤ (deliverStep env codec startAddr n raw lmode d).psCDBuff := by
  have hscan : (d.correct codec).2.psCDBuff = d.psCDBuff := (correct_spec codec d).2.2.2.1
  rcases deliverStep_ways env codec startAddr n raw lmode d with ⟨-, hstep⟩ | ⟨-, hstep⟩
  · rw [hstep] at hlabel
    cases hlabel
  · rw [hstep]
    generalize (d.correct codec).2 = c at hscan ⊢
    have haccept : (c.accept env startAddr raw lmode).psCDBuff
        = c.psCDBuff + cddaSectorSize := rfl
    simp only [Scan.goto, haccept, hscan, cddaSectorSize]
    omega

theorem headerStep_strides
    (hlabel : (headerStep env codec startAddr n s).label = .searchLbn) :
    s.psCDBuff + 2048 ≤ (headerStep env codec startAddr n s).psCDBuff := by
  have hscan : (s.descramble codec).psCDBuff = s.psCDBuff := rfl
  rw [← hscan]
  rcases headerStep_ways env codec startAddr n s with ⟨-, hstep⟩ | hother
  · rw [hstep] at hlabel ⊢
    exact deliverStep_strides _ _ hlabel
  · exact hother.strides hlabel

/-- **A search that does not read again moves the scan pointer on.** -/
theorem searchLbnStep_strides
    (hlabel : (searchLbnStep env codec startAddr n s).label = .searchLbn) :
    s.psCDBuff + 2048 ≤ (searchLbnStep env codec startAddr n s).psCDBuff := by
  have hways := searchLbnStep_ways env codec startAddr n s
  generalize searchLbnStep env codec startAddr n s = t at hways hlabel ⊢
  cases hways with
  | missed =>
    show s.psCDBuff + 2048 ≤ ((s.searched env).move env userSectorSize).psCDBuff
    rw [move_psCDBuff]
    show s.psCDBuff + 2048 ≤ s.psCDBuff + userSectorSize
    simp only [userSectorSize]
    omega
  | lost _ _ l hl =>
    obtain rfl : l = .searchLbn := hlabel
    rcases hl with ⟨hl, -⟩ | hl <;> cases hl
  | forced => cases hlabel
  | header hres =>
    have hstep := headerStep_strides hlabel
    have hat : (s.atHeader env).psCDBuff = s.psCDBuff + s.searchResult env := rfl
    omega

/-! ### What a fetch has room for -/

/-- How many searches at most the last fetch still has room for. -/
def Scan.searchesLeft (s : Scan) : Nat :=
  match s.label, lastFetch s.trace with
  | .searchLbn, some (off, size) => ((off + size - s.psCDBuff) / 2048 + 1).toNat
  | _, _ => 0

theorem searchesLeft_of_ne (h : s.label ≠ .searchLbn) : s.searchesLeft = 0 := by
  unfold Scan.searchesLeft
  split
  next hlabel _ => exact absurd hlabel h
  next => rfl

theorem searchesLeft_of_fetch {off size : Int} (hlabel : s.label = .searchLbn)
    (hfetch : lastFetch s.trace = some (off, size)) :
    s.searchesLeft = ((off + size - s.psCDBuff) / 2048 + 1).toNat := by
  unfold Scan.searchesLeft
  rw [hlabel, hfetch]

/-- What a round has fetched. -/
theorem tryReadStep_fetch
    (hlabel : (tryReadStep env fuel startAddr n s).label = .searchLbn) :
    ∃ size ≤ 498624, (tryReadStep env fuel startAddr n s).trace
        = .fetch s.pdCDBuff size :: s.trace ∧
      (tryReadStep env fuel startAddr n s).psCDBuff = s.pdCDBuff := by
  have hsize := tryReadStep_readSize env fuel startAddr n s hlabel
  have hfetched := wantSampleSize_fetched (s.roundSize n)
  have hle := wantSampleSize_le (s.roundSize n)
  refine ⟨(tryReadStep env fuel startAddr n s).readSize, by omega, ?_,
    tryReadStep_psCDBuff env fuel startAddr n s⟩
  unfold tryReadStep at hlabel ⊢
  simp only at hlabel ⊢
  split at hlabel
  next => cases hlabel
  next =>
    split at hlabel
    next => cases hlabel
    next hpos =>
      rw [if_neg hpos]
      rfl

/-- A read makes room for 244 searches. -/
theorem searchesLeft_tryRead (h : s.label = .tryRead) :
    (scanStep env codec fuel startAddr n s).searchesLeft ≤ 244 := by
  rw [scanStep_tryRead env codec h]
  by_cases hlabel : (tryReadStep env fuel startAddr n s).label = .searchLbn
  · obtain ⟨size, hsize, htrace, hscan⟩ := tryReadStep_fetch hlabel
    have hfetch : lastFetch (tryReadStep env fuel startAddr n s).trace
        = some (s.pdCDBuff, size) := by
      rw [htrace]
      rfl
    rw [searchesLeft_of_fetch hlabel hfetch, hscan]
    omega
  · rw [searchesLeft_of_ne hlabel]
    exact Nat.zero_le _

/-- A search on the data takes one away. -/
theorem searchesLeft_searchLbn (h : s.label = .searchLbn)
    (hdata : InData (scanStep env codec fuel startAddr n s).trace) :
    (scanStep env codec fuel startAddr n s).searchesLeft < s.searchesLeft := by
  rw [scanStep_searchLbn env codec h] at hdata ⊢
  have hkeeps := searchLbnStep_trace env codec startAddr n s
  -- the search has read what the last fetch has placed
  obtain ⟨off, size, hfetch, hlow, hend⟩ : Fetched s.trace s.psCDBuff
      (s.psCDBuff + s.searchRead env) := by
    obtain ⟨l, hl, -⟩ := hkeeps
    rw [hl] at hdata
    exact hdata.of_append.1
  rw [searchesLeft_of_fetch h hfetch]
  by_cases hlabel : (searchLbnStep env codec startAddr n s).label = .searchLbn
  · have hstrides := searchLbnStep_strides hlabel
    have hlast : lastFetch (searchLbnStep env codec startAddr n s).trace = some (off, size) :=
      hkeeps.lastFetch.trans hfetch
    rw [searchesLeft_of_fetch hlabel hlast]
    omega
  · rw [searchesLeft_of_ne hlabel]
    omega

/-! ### The call -/

/-- The trace grows. -/
theorem scanStep_grows (env : Env) (codec : Codec) (fuel startAddr n : Nat) (s : Scan) :
    ∃ l, (scanStep env codec fuel startAddr n s).trace = l ++ s.trace := by
  rcases hlabel : s.label with - | - | res | -
  · rw [scanStep_tryRead env codec hlabel]
    unfold tryReadStep
    simp only
    split
    · exact ⟨[], rfl⟩
    · split
      · exact ⟨[], rfl⟩
      · exact ⟨[_], rfl⟩
  · obtain ⟨l, hl, -⟩ : KeepsFetch s (scanStep env codec fuel startAddr n s) :=
      keepsFetch_scanStep hlabel
    exact ⟨l, hl⟩
  · unfold scanStep
    rw [hlabel]
    exact ⟨[], rfl⟩
  · unfold scanStep
    rw [hlabel]
    exact ⟨[], rfl⟩

/-- What has stayed on the data up to some jump, stayed on it before. -/
theorem inData_scanAt {i k : Nat} (hik : i ≤ k)
    (h : InData (scanAt env codec fuel startAddr n w k).trace) :
    InData (scanAt env codec fuel startAddr n w i).trace := by
  induction k, hik using Nat.le_induction with
  | base => exact h
  | succ k _ ih =>
    rw [scanAt_succ] at h
    obtain ⟨l, hl⟩ := scanStep_grows env codec fuel startAddr n
      (scanAt env codec fuel startAddr n w k)
    rw [hl] at h
    exact ih h.of_append

/-- A call that has ended stays as it is. -/
theorem scanStep_ended (h : ¬ s.UnderWay) : scanStep env codec fuel startAddr n s = s := by
  unfold scanStep
  split
  next hlabel => exact absurd (.inl hlabel) h
  next hlabel => exact absurd (.inr hlabel) h
  next => rfl

/-- A call under way has been under way all the time. -/
theorem underWay_scanAt {i k : Nat} (hik : i ≤ k)
    (h : (scanAt env codec fuel startAddr n w k).UnderWay) :
    (scanAt env codec fuel startAddr n w i).UnderWay := by
  induction k, hik using Nat.le_induction with
  | base => exact h
  | succ k _ ih =>
    by_contra hno
    rw [scanAt_succ] at h
    by_cases hk : (scanAt env codec fuel startAddr n w k).UnderWay
    · exact hno (ih hk)
    · rw [scanStep_ended hk] at h
      exact hk h

/-- A call that has not ended after `k` jumps has read once in 245 of them. -/
theorem jumps_le_reads {k : Nat} (hway : (scanAt env codec fuel startAddr n w k).UnderWay)
    (hdata : InData (scanAt env codec fuel startAddr n w k).trace) :
    k ≤ 245 * readCalls env codec fuel startAddr n w k := by
  have hlive : ∀ i, i < k → (scanAt env codec fuel startAddr n w i).UnderWay ∧
      InData (scanStep env codec fuel startAddr n
        (scanAt env codec fuel startAddr n w i)).trace := by
    intro i hi
    refine ⟨underWay_scanAt hi.le hway, ?_⟩
    rw [← scanAt_succ]
    exact inData_scanAt hi hdata
  have hstart : (enterScan env startAddr w).searchesLeft = 0 := by
    apply searchesLeft_of_ne
    rcases enterScan_label env startAddr w with hl | hl
    · rw [hl]
      decide
    · rw [hl]
      decide
  have hrun : k + (scanAt env codec fuel startAddr n w k).searchesLeft
      ≤ (enterScan env startAddr w).searchesLeft
        + (244 + 1) * readCalls env codec fuel startAddr n w k := by
    refine steps_le_counted
      (fun s => s.UnderWay ∧ InData (scanStep env codec fuel startAddr n s).trace)
      Scan.searchesLeft 244 ?_ ?_ k (enterScan env startAddr w) hlive
    · rintro s ⟨hs | hs, -⟩ hread
      · exact searchesLeft_tryRead hs
      · rw [hs] at hread
        cases hread
    · rintro s ⟨hs | hs, hin⟩ hread
      · rw [hs] at hread
        cases hread
      · exact searchesLeft_searchLbn hs hin
  omega

/-- The reads of a call: the first, and one for each jump back. -/
theorem readCalls_le (env : Env) (codec : Codec) (fuel startAddr n : Nat) (w : World) (k : Nat) :
    readCalls env codec fuel startAddr n w k ≤ 3 * max n 1 + 4 := by
  obtain ⟨pickup, hfund⟩ := fund_enterScan env startAddr w (Retries.total n)
  have hstart : Retries.total n ⟨cdKmpRetryCnt, cdC3Cnt, cdRetryCnt, 0, pickup⟩
      ≤ 3 * max n 1 + 3 := by
    simp only [Retries.total, cdKmpRetryCnt, cdC3Cnt, cdRetryCnt]
    split <;> omega
  have hone : (if (enterScan env startAddr w).label.isTryRead then 1 else 0) ≤ 1 := by
    split <;> decide
  calc readCalls env codec fuel startAddr n w k
      ≤ _ := reads_le_jumps env codec fuel startAddr n k (enterScan env startAddr w)
    _ ≤ (3 * max n 1 + 3) + 1 :=
        Nat.add_le_add ((covers_all.countSteps k _).trans (hfund.trans hstart)) hone

/-- **A call that stays on its data ends.**  Whatever the deck delivers and
the decoder makes of it, after more than `245 (3 n + 4)` jumps a call for `n`
sectors, or for none as for one, has returned, or the `CD_ReadData` it has
called does not return, or one of its accesses has gone beyond the bytes that
the last `CD_ReadData` has placed. -/
theorem call_ends (env : Env) (codec : Codec) (fuel startAddr n : Nat) (w : World) {k : Nat}
    (hk : 245 * (3 * max n 1 + 4) < k) :
    (∃ res, (scanAt env codec fuel startAddr n w k).result = some res) ∨
    (scanAt env codec fuel startAddr n w k).label = .hung ∨
    ¬ InData (scanAt env codec fuel startAddr n w k).trace := by
  by_cases hdata : InData (scanAt env codec fuel startAddr n w k).trace
  · have hended : ¬ (scanAt env codec fuel startAddr n w k).UnderWay := by
      intro hway
      have hjumps := jumps_le_reads hway hdata
      have hreads := readCalls_le env codec fuel startAddr n w k
      omega
    rcases hlabel : (scanAt env codec fuel startAddr n w k).label with - | - | res | -
    · exact absurd (.inl hlabel) hended
    · exact absurd (.inr hlabel) hended
    · left
      refine ⟨res, ?_⟩
      unfold Scan.result
      rw [hlabel]
    · exact .inr (.inl rfl)
  · exact .inr (.inr hdata)

/-- A first call for one sector from a deck that delivers only zeros. -/
theorem call_ends_zeros :
    let s := scanAt servingDeck plainCodec 1 150 1 (yield servingDeck World.initial) 1716
    (∃ res, s.result = some res) ∨ s.label = .hung ∨ ¬ InData s.trace :=
  call_ends servingDeck plainCodec 1 150 1 (yield servingDeck World.initial) (by decide)

end CdPlayer
