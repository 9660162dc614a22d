/-
CdPlayer/Seek.lean

Which answer a seek returns with.

`CD_Send_msf` sends an address and waits for one completion of
`tcc_completion`; `CD_SeekResultMonitor` stores the deck's answer and
completes.  Nothing in a message says which seek it answers, and a wait
that times out leaves its completion to come.  The bookkeeping numbers the
seeks and records the answers with their numbers, so that attribution can
be stated (`Attributed`).

* If every answer is handled while the call of its own seek is waiting,
  every call of every run is attributed correctly (`cdSendMsf_attributed`).
* An answer that comes after its seek has timed out is given to the next
  seek (`cdSendMsf_late_answer`).
-/
import CdPlayer.Outside
import CdPlayer.ReadData

namespace CdPlayer

open Run

/-! ### Answers -/

/-- The seek an event answers, and how. -/
def seekAnswer : Event → Option (Nat × UInt8)
  | .msg m => if m.nlmsgData 0 = charS then some (m.seek, m.nlmsgData 1) else none
  | _ => none

/-- The deck answers seeks that were sent, in order, each at most once. -/
def DeckAnswers (w : World) (e : Event) : Prop :=
  ∀ i v, seekAnswer e = some (i, v) →
    0 < i ∧ i ≤ w.seeks ∧ ∀ a ∈ w.answers, a.1 < i

/-- An answer is handled while the call of its own seek is waiting. -/
def InTime (w : World) (e : Event) : Prop :=
  ∀ i v, seekAnswer e = some (i, v) → w.waiting = true ∧ i = w.seeks

/-- What the seek protocol consists of. -/
structure SeekView where
  tccCompletion : Nat
  response : UInt8
  answers : List (Nat × UInt8)
  seeks : Nat
  waiting : Bool

def World.seekView (w : World) : SeekView :=
  ⟨w.tccCompletion, w.seekResponse 1, w.answers, w.seeks, w.waiting⟩

/-- The protocol state after an answer. -/
def SeekView.answer (s : SeekView) (i : Nat) (v : UInt8) : SeekView :=
  { s with
    tccCompletion := s.tccCompletion + 1, response := v, answers := (i, v) :: s.answers }

/-- The interrupt has no part in the protocol. -/
theorem cdifAdmaHandler_seekView (block : Nat → UInt8) (w : World) :
    (cdifAdmaHandler block w).seekView = w.seekView := by
  by_cases hL : w.sCDDIBuffer.lLength = 0
  · rw [cdifAdmaHandler_unset block hL]
    rfl
  · rcases cdifAdmaHandler_cases block hL with ⟨heq, -⟩ | ⟨heq, -⟩ <;> rw [heq] <;> rfl

/-- A message that is no answer. -/
theorem nlRecvMsg_seekView {m : NlMsg} {w : World} (h : m.nlmsgData 0 ≠ charS) :
    (nlRecvMsg m w).seekView = w.seekView := by
  by_cases hU : m.nlmsgData 0 = charU
  · rw [nlRecvMsg_eject w hU]
    rfl
  · rw [nlRecvMsg_toc w hU h]
    rfl

/-- An answer: its second byte becomes the response. -/
theorem nlRecvMsg_answer {m : NlMsg} {w : World} (h : m.nlmsgData 0 = charS) :
    ({ nlRecvMsg m w with answers := (m.seek, m.nlmsgData 1) :: w.answers } : World).seekView
      = w.seekView.answer m.seek (m.nlmsgData 1) := by
  have h0 : memcpy w.seekResult m.nlmsgData 2 0 = charS := h
  have hbyte : strncpy w.seekResponse (memcpy w.seekResult m.nlmsgData 2) 4 1
      = m.nlmsgData 1 := by
    unfold strncpy
    rw [if_pos (by omega)]
    have hmem : memcpy w.seekResult m.nlmsgData 2 1 = m.nlmsgData 1 := rfl
    by_cases hz : m.nlmsgData 1 = 0
    · simp [List.range_succ, hmem, hz]
    · simp [List.range_succ, h0, hmem, hz]
  rw [nlRecvMsg_seek w h]
  unfold World.seekView SeekView.answer
  simp only [hbyte]

theorem handle_seekView_of_none {w : World} {e : Event} (h : seekAnswer e = none) :
    (handle w e).seekView = w.seekView := by
  cases e with
  | dma block =>
    by_cases hon : w.cdifEnable = true
    · rw [handle, occur, if_pos hon]
      exact cdifAdmaHandler_seekView block w
    · rw [handle, occur, if_neg hon]
      rfl
  | msg m =>
    have hS : m.nlmsgData 0 ≠ charS := by
      intro hS
      simp [seekAnswer, hS] at h
    rw [handle, occur, if_neg hS]
    exact nlRecvMsg_seekView hS
  | mount =>
    change (tcrReadTochdr w).seekView = w.seekView
    obtain ⟨_, _, hw, -⟩ := tcrReadTochdr_writes w
    rw [hw]
    rfl

theorem handle_seekView_of_some {w : World} {e : Event} {i : Nat} {v : UInt8}
    (h : seekAnswer e = some (i, v)) : (handle w e).seekView = w.seekView.answer i v := by
  cases e with
  | dma block => simp [seekAnswer] at h
  | msg m =>
    by_cases hS : m.nlmsgData 0 = charS
    · simp only [seekAnswer, if_pos hS, Option.some.injEq, Prod.mk.injEq] at h
      obtain ⟨rfl, rfl⟩ := h
      rw [handle, occur, if_pos hS]
      exact nlRecvMsg_answer hS
    · simp only [seekAnswer, if_neg hS] at h
      exact absurd h (by simp)
  | mount => simp [seekAnswer] at h

/-! ### The protocol with answers in time -/

/-- Between calls: nothing pending, no response left over. -/
structure SeekIdle (s : SeekView) : Prop where
  settled : s.tccCompletion = 0
  response : s.response = 0
  quiet : s.waiting = false
  past : ∀ a ∈ s.answers, a.1 ≤ s.seeks

/-- During the wait of seek `n`: either its answer is still to come, or it
has come and its completion is there. -/
structure SeekAwaits (n : Nat) (s : SeekView) : Prop where
  seeks : s.seeks = n
  waits : s.waiting = true
  answer : (s.tccCompletion = 0 ∧ s.response = 0 ∧ ∀ a ∈ s.answers, a.1 < n) ∨
    (s.tccCompletion = 1 ∧ (n, s.response) ∈ s.answers ∧ ∀ a ∈ s.answers, a.1 ≤ n)

/-- The deck's discipline together with answers in time. -/
def DeckInTime (w : World) (e : Event) : Prop := DeckAnswers w e ∧ InTime w e

variable {env : Env} {n : Nat} {w : World}

theorem seekAwaits_handle (w : World) (e : Event) (hok : DeckInTime w e)
    (h : SeekAwaits n w.seekView) : SeekAwaits n (handle w e).seekView := by
  rcases he : seekAnswer e with - | ⟨i, v⟩
  · rw [handle_seekView_of_none he]
    exact h
  · obtain ⟨-, -, hnew⟩ := hok.1 i v he
    obtain ⟨-, rfl⟩ := hok.2 i v he
    have hn : w.seeks = n := h.seeks
    rw [handle_seekView_of_some he]
    refine ⟨h.seeks, h.waits, .inr ?_⟩
    rcases h.answer with ⟨hc, -, hold⟩ | ⟨-, hmem, -⟩
    · refine ⟨by simp [SeekView.answer, hc], by simp [SeekView.answer, hn], ?_⟩
      intro a ha
      rcases List.mem_cons.mp ha with rfl | ha
      · exact hn.le
      · exact (hold a ha).le
    · -- a second answer to the same seek
      exact absurd (hnew _ hmem) (by simp [hn])

/-- Nothing is answered outside a wait. -/
theorem yield_seekView (henv : env.Obeys DeckInTime) (h : w.waiting = false) :
    (yield env w).seekView = w.seekView := by
  refine henv.yield (P := fun u => u.seekView = w.seekView) (fun u e hok hu => ?_)
    (fun u hu => hu) rfl
  rcases he : seekAnswer e with - | ⟨i, v⟩
  · rw [handle_seekView_of_none he, hu]
  · obtain ⟨hwait, -⟩ := hok.2 i v he
    have hsame : u.waiting = w.waiting := congrArg SeekView.waiting hu
    rw [hsame, h] at hwait
    exact absurd hwait (by decide)

/-! ### One call -/

/-- The call from `w` is attributed correctly: if its wait ends with a
completion, the deck has answered this very seek and the call returns 1
just if the answer was success; and it never returns 1 without that
answer. -/
def Attributed (env : Env) (msf : Nat) (w : World) : Prop :=
  (0 < (waitForCompletion env (beginSeek msf w)).1 →
    ∃ v, (w.seeks + 1, v) ∈ (waitForCompletion env (beginSeek msf w)).2.answers ∧
      ((cdSendMsf env msf w).1 = 1 ↔ v = 1)) ∧
  ((cdSendMsf env msf w).1 = 1 → (w.seeks + 1, 1) ∈ (cdSendMsf env msf w).2.answers)

theorem seekAwaits_beginSeek (msf : Nat) (h : SeekIdle w.seekView) :
    SeekAwaits (w.seeks + 1) (beginSeek msf w).seekView where
  seeks := rfl
  waits := rfl
  answer := .inl ⟨h.settled, h.response, fun a ha => Nat.lt_succ_of_le (h.past a ha)⟩

/-- The call after its wait. -/
def endSeek (env : Env) (ret : Int) (w : World) : Int × World :=
  let w := { w with waiting := false }.note (.seekEnded ret w.cdifEnable)
  if ret = 0 then (seekTimeOut, w)
  else
    let w := yield env w
    let ret := if w.seekResponse 1 = 1 then 1 else deckError
    let w := yield env w
    (ret, { w with seekResponse := memset0 w.seekResponse 2 })

theorem cdSendMsf_eq (env : Env) (msf : Nat) (w : World) :
    cdSendMsf env msf w = endSeek env (waitForCompletion env (beginSeek msf w)).1
      (waitForCompletion env (beginSeek msf w)).2 := rfl

/-- How a wait ends when answers are in time. -/
theorem waitForCompletion_cases (henv : env.Obeys DeckInTime) (h : SeekAwaits n w.seekView) :
    let u := (waitForCompletion env w).2
    u.seeks = n ∧ u.tccCompletion = 0 ∧ (∀ a ∈ u.answers, a.1 ≤ n) ∧
    ((waitForCompletion env w).1 = 1 ∧ (n, u.seekResponse 1) ∈ u.answers ∨
      (waitForCompletion env w).1 ≤ 0 ∧ u.seekResponse 1 = 0) := by
  have hy : SeekAwaits n (yield env w).seekView :=
    henv.yield (P := fun u => SeekAwaits n u.seekView) seekAwaits_handle (fun _ hu => hu) h
  have hseeks : (yield env w).seeks = n := hy.seeks
  unfold waitForCompletion
  rcases hy.answer with ⟨hc, hr, hold⟩ | ⟨hc, hmem, hold⟩
  · have hc' : (yield env w).tccCompletion = 0 := hc
    simp only [hc', lt_irrefl, if_false]
    split
    · exact ⟨hseeks, hc, fun a ha => (hold a ha).le, .inr ⟨show (-512 : Int) ≤ 0 by decide, hr⟩⟩
    · exact ⟨hseeks, hc, fun a ha => (hold a ha).le, .inr ⟨le_rfl, hr⟩⟩
  · have hc' : (yield env w).tccCompletion = 1 := hc
    simp only [hc', Nat.one_pos, if_true]
    exact ⟨hseeks, trivial, hold, .inl ⟨trivial, hmem⟩⟩

/-- The rest of the call, when nothing is pending any more. -/
theorem endSeek_spec (henv : env.Obeys DeckInTime) (ret : Int) (hc : w.tccCompletion = 0)
    (hpast : ∀ a ∈ w.answers, a.1 ≤ w.seeks) (hr : ret = 0 → w.seekResponse 1 = 0) :
    SeekIdle (endSeek env ret w).2.seekView ∧
    (endSeek env ret w).2.seeks = w.seeks ∧
    (endSeek env ret w).2.answers = w.answers ∧
    ((endSeek env ret w).1 = 1 ↔ ret ≠ 0 ∧ w.seekResponse 1 = 1) := by
  unfold endSeek
  by_cases hret : ret = 0
  · simp only [if_pos hret]
    refine ⟨⟨hc, hr hret, rfl, hpast⟩, rfl, rfl, ?_⟩
    simp [hret]
  · simp only [if_neg hret]
    generalize hv : ({ w with waiting := false } : World).note (.seekEnded ret w.cdifEnable) = u
    have hu : u.waiting = false := by rw [← hv]; rfl
    have hview : u.seekView = { w.seekView with waiting := false } := by rw [← hv]; rfl
    have h₁ : (yield env u).seekView = u.seekView := yield_seekView henv hu
    -- with nothing pending the deck leaves the seek alone during both turns
    have h₂ : (yield env (yield env u)).seekView = u.seekView := by
      rw [yield_seekView henv (by rw [yield_waiting]; exact hu), h₁]
    have hresp : (yield env u).seekResponse 1 = w.seekResponse 1 :=
      congrArg SeekView.response (h₁.trans hview)
    have hans : (yield env (yield env u)).answers = w.answers :=
      congrArg SeekView.answers (h₂.trans hview)
    have hsk : (yield env (yield env u)).seeks = w.seeks :=
      congrArg SeekView.seeks (h₂.trans hview)
    refine ⟨⟨?_, rfl, ?_, ?_⟩, hsk, hans, ?_⟩
    · exact (congrArg SeekView.tccCompletion (h₂.trans hview)).trans hc
    · exact congrArg SeekView.waiting (h₂.trans hview)
    · intro a ha
      change a.1 ≤ (yield env (yield env u)).seeks
      rw [hsk]
      exact hpast a (hans ▸ ha)
    · rw [hresp]
      by_cases h1 : w.seekResponse 1 = 1 <;> simp [h1, hret]

/-- What one call does when answers are in time. -/
theorem cdSendMsf_spec (henv : env.Obeys DeckInTime) (msf : Nat) (h : SeekIdle w.seekView) :
    Attributed env msf w ∧ SeekIdle (cdSendMsf env msf w).2.seekView := by
  obtain ⟨hseeks, hc, hpast, hcases⟩ :=
    waitForCompletion_cases henv (seekAwaits_beginSeek msf h)
  have hend := endSeek_spec henv (waitForCompletion env (beginSeek msf w)).1 hc
    (fun a ha => by rw [hseeks]; exact hpast a ha) (fun h0 => by
      rcases hcases with ⟨h1, -⟩ | ⟨-, hr⟩
      · rw [h1] at h0; exact absurd h0 (by decide)
      · exact hr)
  rw [← cdSendMsf_eq] at hend
  obtain ⟨hidle, -, hans, hone⟩ := hend
  refine ⟨⟨fun hpos => ?_, fun h1 => ?_⟩, hidle⟩
  · rcases hcases with ⟨hret, hmem⟩ | ⟨hle, -⟩
    · refine ⟨_, hmem, hone.trans ⟨And.right, fun hv => ⟨?_, hv⟩⟩⟩
      rw [hret]
      decide
    · exact absurd hpos (not_lt.mpr hle)
  · obtain ⟨-, hresp⟩ := hone.mp h1
    rcases hcases with ⟨-, hmem⟩ | ⟨-, hr⟩
    · rw [hans, ← hresp]
      exact hmem
    · rw [hr] at hresp
      exact absurd hresp (by decide)

/-- A seek that neither fails nor times out has been answered. -/
theorem cdSendMsf_answered (henv : env.Obeys DeckInTime) (msf : Nat) (h : SeekIdle w.seekView)
    (hret : (cdSendMsf env msf w).1 ≠ -1)
    (hwait : (waitForCompletion env (beginSeek msf w)).1 ≠ 0) :
    ∃ v, ((cdSendMsf env msf w).2.seeks, v) ∈ (cdSendMsf env msf w).2.answers := by
  obtain ⟨hseeks, hc, hpast, hcases⟩ :=
    waitForCompletion_cases henv (seekAwaits_beginSeek msf h)
  have hend := endSeek_spec henv (waitForCompletion env (beginSeek msf w)).1 hc
    (fun a ha => by rw [hseeks]; exact hpast a ha) (fun h0 => absurd h0 hwait)
  rw [← cdSendMsf_eq] at hend
  obtain ⟨-, hsame, hans, hone⟩ := hend
  have hval : (cdSendMsf env msf w).1 = 1 := by
    unfold cdSendMsf at hret ⊢
    rcases hres : waitForCompletion env (beginSeek msf w) with ⟨ret, u⟩
    rw [hres] at hret hwait
    simp only [if_neg hwait] at hret ⊢
    split
    · rfl
    next hne => exact absurd (if_neg hne) hret
  rcases hcases with ⟨-, hmem⟩ | ⟨-, hr⟩
  · rw [hsame, hseeks, hans]
    exact ⟨_, hmem⟩
  · have h1 := (hone.mp hval).2
    rw [hr] at h1
    exact absurd h1 (by decide)

/-! ### Every run -/

/-- A step of a run of seeks. -/
inductive SeekStep
  | idle
  | call (msf : Nat)

def seekStep (env : Env) (w : World) : SeekStep → World
  | .idle => yield env w
  | .call msf => (cdSendMsf env msf w).2

theorem seekIdle_initial : SeekIdle World.initial.seekView :=
  ⟨rfl, rfl, rfl, fun _ ha => absurd ha List.not_mem_nil⟩

theorem seekIdle_step (henv : env.Obeys DeckInTime) (w : World) (st : SeekStep)
    (h : SeekIdle w.seekView) : SeekIdle (seekStep env w st).seekView := by
  cases st with
  | idle =>
    change SeekIdle (yield env w).seekView
    rw [yield_seekView henv h.quiet]
    exact h
  | call msf => exact (cdSendMsf_spec henv msf h).2

/-- **Answers in time are attributed correctly.**  In every run of seeks
and turns in which the deck's answers are handled while the call of their
own seek is waiting, every call is attributed correctly. -/
theorem cdSendMsf_attributed (env : Env) (henv : env.Obeys DeckInTime) (steps : List SeekStep)
    (msf : Nat) : Attributed env msf (steps.foldl (seekStep env) World.initial) :=
  (cdSendMsf_spec henv msf (foldl_inv (seekIdle_step henv) steps seekIdle_initial)).1

/-- The deck's answer to seek `i`. -/
def answerTo (i : Nat) (v : UInt8) : Event :=
  .msg ⟨1, 18, fun j => if j = 0 then charS else v, i⟩

/-- A deck that answers at once. -/
def promptDeck : Env := fun w =>
  if w.waiting = true ∧ 0 < w.seeks ∧ w.answers.all (fun a => a.1 < w.seeks) then
    ⟨[answerTo w.seeks 1], false, true⟩
  else .quiet

theorem promptDeck_obeys : promptDeck.Obeys DeckInTime := by
  intro w
  unfold promptDeck
  split
  next h =>
    obtain ⟨hwait, hpos, hall⟩ := h
    refine ⟨⟨fun i v hi => ?_, fun i v hi => ?_⟩, trivial⟩ <;>
      simp only [seekAnswer, answerTo, if_true, Option.some.injEq, Prod.mk.injEq] at hi <;>
      obtain ⟨rfl, -⟩ := hi
    · exact ⟨hpos, le_rfl, by simpa using hall⟩
    · exact ⟨hwait, rfl⟩
  next => trivial

theorem cdSendMsf_attributed_prompt : Attributed promptDeck 300
    ([.call 100, .idle, .call 200].foldl (seekStep promptDeck) World.initial) :=
  cdSendMsf_attributed promptDeck promptDeck_obeys _ 300

/-- A deck that answers the first seek after it has timed out, and no other. -/
def lateDeck : Env := fun w =>
  if w.seeks = 1 ∧ w.waiting = false ∧ w.answers = [] then ⟨[answerTo 1 1], false, true⟩
  else .quiet

theorem lateDeck_obeys : lateDeck.Obeys DeckAnswers := by
  intro w
  unfold lateDeck
  split
  next h =>
    obtain ⟨hone, -, hnil⟩ := h
    refine ⟨fun i v hi => ?_, trivial⟩
    simp only [seekAnswer, answerTo, if_true, Option.some.injEq, Prod.mk.injEq] at hi
    obtain ⟨rfl, -⟩ := hi
    exact ⟨Nat.one_pos, hone.ge, by simp [hnil]⟩
  next => trivial

/-- **A late answer is given to the next seek.**  The first seek times out,
its answer comes between the calls, and the second seek returns success at
once, unanswered. -/
theorem cdSendMsf_late_answer :
    ¬ ∀ env : Env, env.Obeys DeckAnswers → ∀ (steps : List SeekStep) (msf : Nat),
      Attributed env msf (steps.foldl (seekStep env) World.initial) := by
  intro hall
  have h := (hall lateDeck lateDeck_obeys [.call 100, .idle] 200).2
  have hret : (cdSendMsf lateDeck 200
      ([SeekStep.call 100, .idle].foldl (seekStep lateDeck) World.initial)).1 = 1 := by
    decide
  have hans : (cdSendMsf lateDeck 200
      ([SeekStep.call 100, .idle].foldl (seekStep lateDeck) World.initial)).2.answers
        = [(1, 1)] := by
    decide
  have hmem := h hret
  rw [hans] at hmem
  simp at hmem
  exact absurd hmem (by decide)

end CdPlayer
