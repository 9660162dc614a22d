/-
CdPlayer/PostSeek.lean

After a seek the ring holds only what came after it.

`CD_Do_StopBuffering` empties the ring, seeks and turns the CDIF on; it
does not turn it off first.  That the CDIF is off when it is entered is up
to its callers, and one of them, the buffer-full branch of
`CD_Set_StartBuffing`, relies on the interrupt having done it.  Nor does it
distinguish a seek that has timed out from one that was answered.

* `seek_then_stream`: in every run whose seeks are answered in time and
  whose buffer-full branch never meets the CDIF on, the CDIF is off from
  the entry of `CD_Do_StopBuffering` to the answer, the stream starts on an
  empty ring, and every sample buffered or copied from then on is younger
  than the seek.
* `openStream_unanswered`: a seek that times out turns the CDIF on without
  an answer.
-/
import CdPlayer.Stamps
import CdPlayer.HasData

namespace CdPlayer

open Run

/-! ### Notes -/

/-- What the order of seek and stream rests on: the buffer-full branch
finds the CDIF off, no wait for a response times out, the reader stays
within what is buffered and copies no more than that. -/
def Note.Clean : Note → Prop
  | .fullBranch cdif => cdif = false
  | .seekEnded ret _ => ret ≠ 0
  | .advance n avail => n ≤ avail
  | .copied n avail => n ≤ avail
  | _ => True

instance : DecidablePred Note.Clean
  | .fullBranch cdif => inferInstanceAs (Decidable (cdif = false))
  | .seekEnded ret _ => inferInstanceAs (Decidable (ret ≠ 0))
  | .advance n avail => inferInstanceAs (Decidable (n ≤ avail))
  | .copied n avail => inferInstanceAs (Decidable (n ≤ avail))
  | .dma _ | .enterStart _ | .enterStop _ | .seekSent _ | .streamOn _ _ | .stopExpired _ =>
    inferInstanceAs (Decidable True)

def NotesClean (w : World) : Prop := ∀ n ∈ w.notes, n.Clean

instance (w : World) : Decidable (NotesClean w) :=
  inferInstanceAs (Decidable (∀ n ∈ w.notes, n.Clean))

/-- The order itself: the CDIF is off when `CD_Do_StopBuffering` is entered
and when the wait for its seek ends, and it is turned on over an empty
ring after the deck has answered. -/
def Note.Ordered : Note → Prop
  | .enterStop cdif => cdif = false
  | .seekEnded _ cdif => cdif = false
  | .streamOn samples answered => samples = 0 ∧ answered = true
  | _ => True

instance : DecidablePred Note.Ordered
  | .enterStop cdif => inferInstanceAs (Decidable (cdif = false))
  | .seekEnded _ cdif => inferInstanceAs (Decidable (cdif = false))
  | .streamOn samples answered => inferInstanceAs (Decidable (samples = 0 ∧ answered = true))
  | .dma _ | .fullBranch _ | .enterStart _ | .seekSent _ | .stopExpired _ | .copied _ _
  | .advance _ _ => inferInstanceAs (Decidable True)

/-- What holds wherever notes are clean. -/
structure PostSeek (w : World) : Prop where
  ordered : ∀ n ∈ w.notes, n.Ordered
  fresh : FreshRing w.seekAt w

variable {env : Env} {w w' : World}

/-- Actions that leave the seek alone and add only notes without an order. -/
theorem PostSeek.step (h : PostSeek w) (hseek : w'.seekAt = w.seekAt)
    (hnotes : ∀ n ∈ w'.notes, n ∈ w.notes ∨ n.Ordered) (hfresh : FreshRing w.seekAt w') :
    PostSeek w' where
  ordered := fun n hn => (hnotes n hn).elim (h.ordered n) id
  fresh := by rw [hseek]; exact hfresh

theorem Outside.ordered (h : Outside w w') {n : Note} (hn : n ∈ w'.notes) :
    n ∈ w.notes ∨ n.Ordered :=
  (h.dmaNotes n hn).imp_right fun ⟨_, heq⟩ => by rw [heq]; trivial

theorem PostSeek.yield (h : PostSeek w) : PostSeek (yield env w) :=
  h.step (outside_yield env w).seekAt (fun _ hn => (outside_yield env w).ordered hn)
    h.fresh.yield

theorem PostSeek.giveUp (h : PostSeek w) : PostSeek (giveUp env w).2 := by
  have h₁ : PostSeek (CdPlayer.yield env w) := h.yield
  have h₂ : PostSeek (cdSetBufferStatus .stop (cdSetErrorStatus .missSubq
      (CdPlayer.yield env w))) :=
    h₁.step rfl (fun _ hn => .inl hn) (h₁.fresh.congr rfl id le_rfl)
  have h₃ : PostSeek (CdPlayer.yield env (cdSetBufferStatus .stop (cdSetErrorStatus .missSubq
      (CdPlayer.yield env w)))) := h₂.yield
  exact h₃.step rfl (fun _ hn => .inl hn)
    (h₃.fresh.congr rfl (fun hon => absurd hon Bool.false_ne_true) le_rfl)

/-! ### One seek -/

/-- The notes of a seek under a CDIF that is off. -/
theorem cdSendMsf_notes (msf : Nat) (hoff : w.cdifEnable = false) {n : Note}
    (hn : n ∈ (cdSendMsf env msf w).2.notes) : n ∈ w.notes ∨ n.Ordered := by
  have hwait := frame_waitForCompletion env (beginSeek msf w)
  have hmem : ∀ m ∈ (waitForCompletion env (beginSeek msf w)).2.notes,
      m ∈ w.notes ∨ m.Ordered := by
    have hturn : ∀ m ∈ (CdPlayer.yield env (beginSeek msf w)).notes, m ∈ w.notes ∨ m.Ordered := by
      intro m hm
      rcases (outside_yield env (beginSeek msf w)).ordered hm with hm | hm
      · rcases List.mem_cons.mp hm with rfl | hm
        · exact .inr trivial
        · exact .inl hm
      · exact .inr hm
    unfold waitForCompletion
    simp only
    split
    · exact hturn
    · split <;> exact hturn
  have hoffu := hwait.cdif_off (w := beginSeek msf w) hoff
  unfold cdSendMsf at hn
  rcases hres : waitForCompletion env (beginSeek msf w) with ⟨ret, u⟩
  rw [hres] at hn hmem hoffu
  -- the wait ends with the CDIF off, as it began
  have hend : ∀ m ∈ (({ u with waiting := false } : World).note
      (.seekEnded ret u.cdifEnable)).notes, m ∈ w.notes ∨ m.Ordered := by
    intro m hm
    rcases List.mem_cons.mp hm with rfl | hm
    · exact .inr hoffu
    · exact hmem m hm
  simp only at hn
  -- after a response there are two more turns
  split at hn
  · exact hend n hn
  · rcases (outside_yield env _).ordered hn with hn | hn
    · rcases (outside_yield env _).ordered hn with hn | hn
      · exact hend n hn
      · exact .inr hn
    · exact .inr hn

/-- The clock moves on between a seek and its end. -/
theorem cdSendMsf_seekAt (env : Env) (msf : Nat) (w : World) :
    (cdSendMsf env msf w).2.seekAt < (cdSendMsf env msf w).2.now := by
  have hwait : (waitForCompletion env (beginSeek msf w)).2.seekAt
      < (waitForCompletion env (beginSeek msf w)).2.now := by
    have hturn : (CdPlayer.yield env (beginSeek msf w)).seekAt
        < (CdPlayer.yield env (beginSeek msf w)).now := by
      rw [(outside_yield env (beginSeek msf w)).seekAt]
      have hfold := (foldl_rel Outside.refl Outside.trans outside_handle
        (env (beginSeek msf w)).events (beginSeek msf w)).now
      exact Nat.lt_succ_of_le hfold
    unfold waitForCompletion
    simp only
    split
    · exact hturn
    · split <;> exact hturn
  unfold cdSendMsf
  rcases hres : waitForCompletion env (beginSeek msf w) with ⟨ret, u⟩
  rw [hres] at hwait
  simp only
  split
  · exact hwait
  · have h₁ := outside_yield env (({ u with waiting := false } : World).note
      (.seekEnded ret u.cdifEnable))
    have h₂ := h₁.trans (outside_yield env _)
    change (CdPlayer.yield env (CdPlayer.yield env _)).seekAt < _
    rw [h₂.seekAt]
    exact lt_of_lt_of_le hwait h₂.now

/-- The wait for the response has left its note. -/
theorem cdSendMsf_seekEnded (env : Env) (msf : Nat) (w : World) :
    ∃ cdif, .seekEnded (waitForCompletion env (beginSeek msf w)).1 cdif
      ∈ (cdSendMsf env msf w).2.notes := by
  unfold cdSendMsf
  rcases waitForCompletion env (beginSeek msf w) with ⟨ret, u⟩
  refine ⟨u.cdifEnable, ?_⟩
  simp only
  split
  · exact List.mem_cons_self
  · exact (frame_yield env _).notes.mem ((frame_yield env _).notes.mem List.mem_cons_self)

/-! ### The protocol between seeks -/

section InTime

variable (henv : env.Obeys DeckInTime)
include henv

theorem zeroPointers_seekView (h : w.waiting = false) :
    (zeroPointers env w).seekView = w.seekView := by
  have h₁ := yield_seekView henv h
  have hw : (zeroWritePtr (CdPlayer.yield env w)).waiting = false :=
    (outside_yield env w).waiting.trans h
  exact (yield_seekView henv hw).trans h₁

theorem giveUp_seekView (h : w.waiting = false) : (giveUp env w).2.seekView = w.seekView := by
  have h₁ := yield_seekView henv h
  have hw : (cdSetBufferStatus .stop (cdSetErrorStatus .missSubq (CdPlayer.yield env w))).waiting
      = false := (outside_yield env w).waiting.trans h
  exact (yield_seekView henv hw).trans h₁

theorem enterStop_seekView (h : w.waiting = false) :
    (enterStop env w).seekView = w.seekView :=
  zeroPointers_seekView henv (w := w.note _) h

theorem openStream_seekView (h : w.waiting = false) :
    (openStream env w).seekView = w.seekView :=
  yield_seekView henv (w := cdSetBufferStatus .start w) h

/-- Between calls nothing is pending, whatever the driver does. -/
theorem seekIdle_act (a b : World) (hact : Act env a b) (h : SeekIdle a.seekView) :
    SeekIdle b.seekView := by
  cases hact with
  | turn => rw [yield_seekView henv h.quiet]; exact h
  | own => exact h
  | stop => exact h
  | cdifOff => exact h
  | filled => exact h
  | fullBranch _ =>
    have hsame := yield_seekView henv
      (w := (cdSetBufferStatus .stop a).note (.fullBranch a.cdifEnable)) h.quiet
    change SeekIdle (CdPlayer.yield env _).seekView
    rw [hsame]
    exact h
  | enterStart => exact h
  | startTimeOut =>
    have hz := zeroPointers_seekView henv h.quiet
    have hw : (zeroPointers env a).waiting = false :=
      (congrArg SeekView.waiting hz).trans h.quiet
    rw [giveUp_seekView henv hw, hz]
    exact h
  | stopTimeOut => rw [giveUp_seekView henv h.quiet]; exact h
  | stopExpired => exact h
  -- the one act that seeks: it has its answer, or has given up, before it opens the stream
  | seek addr _ =>
    have he : SeekIdle (enterStop env a).seekView := by
      rw [enterStop_seekView henv h.quiet]
      exact h
    have hs := (cdSendMsf_spec henv addr he).2
    unfold CdPlayer.startStream
    rcases hres : cdSendMsf env addr (enterStop env a) with ⟨ret, u⟩
    rw [hres] at hs
    simp only
    split
    · exact hs
    · rw [openStream_seekView henv hs.quiet]
      exact hs
  | copied => exact h
  | advance => exact h

/-! ### One seek after another -/

/-- A seek from a state in which the CDIF is off. -/
theorem PostSeek.startStream (addr : Nat) (h : PostSeek w) (hoff : w.cdifEnable = false)
    (hidle : SeekIdle w.seekView) (hclean : NotesClean (startStream env addr w).2) :
    PostSeek (startStream env addr w).2 := by
  have hring := ringOk_startStream env addr h.fresh.ring
  obtain ⟨hempty, hoffe, -⟩ := enterStop_off env hoff
  have he : SeekIdle (enterStop env w).seekView := by
    rw [enterStop_seekView henv hidle.quiet]
    exact hidle
  have hseek := cdSendMsf_frame env addr (enterStop env w)
  have hnotes : ∀ n ∈ (cdSendMsf env addr (enterStop env w)).2.notes, n.Ordered := by
    intro n hn
    rcases cdSendMsf_notes addr hoffe hn with hn | hn
    · -- the notes of entering
      have h₁ := (outside_yield env (w.note (.enterStop w.cdifEnable)))
      rcases (outside_yield env (zeroWritePtr (CdPlayer.yield env
        (w.note (.enterStop w.cdifEnable))))).ordered hn with hn | hn
      · rcases h₁.ordered hn with hn | hn
        · rcases List.mem_cons.mp hn with rfl | hn
          · exact hoff
          · exact h.ordered n hn
        · exact hn
      · exact hn
    · exact hn
  have hclock := cdSendMsf_seekAt env addr (enterStop env w)
  have hidle' := (cdSendMsf_spec henv addr he).2
  have hanswer := cdSendMsf_answered henv addr he
  obtain ⟨cdif, hended⟩ := cdSendMsf_seekEnded env addr (enterStop env w)
  unfold CdPlayer.startStream at hring hclean ⊢
  rcases hres : cdSendMsf env addr (enterStop env w) with ⟨ret, u⟩
  rw [hres] at hring hclean hseek hnotes hclock hidle' hanswer hended
  have hringu : u.sCDDIBuffer = w.sCDDIBuffer.emptied := (hseek.ring hoffe).trans hempty
  have hoffu := hseek.cdif_off hoffe
  by_cases hret : ret = -1
  · -- refused: nothing is opened, and the CDIF stays off
    simp only [if_pos hret] at hring ⊢
    exact ⟨hnotes, hring, by rw [hringu]; exact freshWindow_emptied,
      fun hon => absurd hon (by rw [hoffu]; decide)⟩
  · simp only [if_neg hret] at hring hclean ⊢
    have hturn := outside_yield env (cdSetBufferStatus .start u)
    have hringx : (openStream env u).sCDDIBuffer = w.sCDDIBuffer.emptied :=
      (hturn.ring hoffu).trans hringu
    have hview := yield_seekView henv (w := cdSetBufferStatus .start u) hidle'.quiet
    obtain ⟨v, hv⟩ := hanswer hret (hclean _ (List.mem_cons_of_mem _ (hturn.notes.mem hended)))
    refine ⟨fun n hn => ?_, hring, by rw [hringx]; exact freshWindow_emptied, fun _ => ?_⟩
    · rcases List.mem_cons.mp hn with rfl | hn
      · -- the note of opening: an empty ring and an answered seek
        refine ⟨?_, ?_⟩
        · change singleBufferDataAvailable (openStream env u).sCDDIBuffer = 0
          rw [hringx]
          exact dataAvailable_emptied _
        · rw [List.any_eq_true]
          have hans : (CdPlayer.yield env (cdSetBufferStatus .start u)).answers = u.answers :=
            congrArg SeekView.answers hview
          have hsk : (CdPlayer.yield env (cdSetBufferStatus .start u)).seeks = u.seeks :=
            congrArg SeekView.seeks hview
          rw [hans, hsk]
          exact ⟨_, hv, decide_eq_true rfl⟩
      · rcases hturn.ordered hn with hn | hn
        · exact hnotes n hn
        · exact hn
    · change (CdPlayer.yield env (cdSetBufferStatus .start u)).seekAt
        < (CdPlayer.yield env (cdSetBufferStatus .start u)).now
      rw [hturn.seekAt]
      exact lt_of_lt_of_le hclock hturn.now

/-- What one action preserves. -/
theorem postSeek_act (a b : World) (hact : Act env a b)
    (h : SeekIdle a.seekView ∧ (NotesClean a → PostSeek a)) :
    SeekIdle b.seekView ∧ (NotesClean b → PostSeek b) := by
  refine ⟨seekIdle_act henv a b hact h.1, fun hclean => ?_⟩
  have hcleana : NotesClean a := fun n hn => hclean n (act_mem_notes a b hact hn)
  have ha := h.2 hcleana
  cases hact with
  | turn => exact ha.yield
  | own => exact ha.step rfl (fun _ hn => .inl hn) (ha.fresh.congr rfl id le_rfl)
  | stop => exact ha.step rfl (fun _ hn => .inl hn) (ha.fresh.congr rfl id le_rfl)
  | cdifOff =>
    exact ha.step rfl (fun _ hn => .inl hn)
      (ha.fresh.congr rfl (fun hon => absurd hon (by simp [setCdifEnable])) le_rfl)
  | filled => exact ha.step rfl (fun _ hn => .inl hn) (ha.fresh.congr rfl id le_rfl)
  | fullBranch _ =>
    have h₁ : PostSeek ((cdSetBufferStatus .stop a).note (.fullBranch a.cdifEnable)) := by
      refine ha.step rfl (fun n hn => ?_) (ha.fresh.congr rfl id le_rfl)
      rcases List.mem_cons.mp hn with rfl | hn
      · exact .inr trivial
      · exact .inl hn
    exact h₁.yield.step rfl (fun _ hn => .inl hn) (h₁.yield.fresh.congr rfl id le_rfl)
  | enterStart =>
    refine ha.step rfl (fun n hn => ?_) (ha.fresh.congr rfl id le_rfl)
    rcases List.mem_cons.mp hn with rfl | hn
    · exact .inr trivial
    · exact .inl hn
  | startTimeOut =>
    refine PostSeek.giveUp (ha.step ?_ (fun n hn => ?_)
      (freshRing_zeroPointers ha.fresh.ring ha.fresh.clock))
    · exact ((outside_yield env (zeroWritePtr (CdPlayer.yield env a))).seekAt).trans
        (outside_yield env a).seekAt
    · rcases (outside_yield env (zeroWritePtr (CdPlayer.yield env a))).ordered hn with hn | hn
      · exact (outside_yield env a).ordered hn
      · exact .inr hn
  | stopTimeOut => exact ha.giveUp
  | stopExpired =>
    refine ha.step rfl (fun n hn => ?_) (ha.fresh.congr rfl id le_rfl)
    rcases List.mem_cons.mp hn with rfl | hn
    · exact .inr trivial
    · exact .inl hn
  | seek addr hguard =>
    -- a seek with the CDIF on would leave a note that is not clean
    refine ha.startStream henv addr ?_ h.1 hclean
    rcases hon : a.cdifEnable with - | -
    · rfl
    · exact absurd (hcleana _ (hguard hon)) (by simp [Note.Clean])
  | copied =>
    refine ha.step rfl (fun n hn => ?_) (ha.fresh.congr rfl id le_rfl)
    rcases List.mem_cons.mp hn with rfl | hn
    · exact .inr trivial
    · exact .inl hn
  | advance n hn _ =>
    refine ha.step rfl (fun m hm => ?_) (ha.fresh.advance hn ?_)
    · rcases List.mem_cons.mp hm with rfl | hm
      · exact .inr trivial
      · exact .inl hm
    · exact hclean (.advance n _) List.mem_cons_self

end InTime

/-! ### Every run -/

theorem postSeek_initial : PostSeek World.initial where
  ordered := fun _ hn => absurd hn List.not_mem_nil
  fresh := ⟨ringOk_initial, freshWindow_of_empty rfl, fun hon => absurd hon (by decide)⟩

theorem Acts.postSeek (henv : env.Obeys DeckInTime) (h : Acts env World.initial w)
    (hclean : NotesClean w) : PostSeek w :=
  (h.inv (P := fun u => SeekIdle u.seekView ∧ (NotesClean u → PostSeek u))
    (postSeek_act henv) ⟨seekIdle_initial, fun _ => postSeek_initial⟩).2 hclean

/-- **After a seek the ring holds only what came after it.**  In every
reachable state whose notes are clean, under a deck whose answers are in
time: the CDIF was off at every entry of `CD_Do_StopBuffering` and at the
end of every wait for a response, every stream was started on an empty
ring after its seek had been answered, what is buffered is younger than
the last seek, and so is what the next read copies. -/
theorem seek_then_stream (codec : Codec) (henv : env.Obeys DeckInTime) {k : Nat}
    (hw : Reachable env codec k w) (fuel startAddr n : Nat) (p : Int)
    (hclean : NotesClean (cdReadData env fuel startAddr n p w).2) :
    let r := cdReadData env fuel startAddr n p w
    (∀ m ∈ r.2.notes, m.Ordered) ∧
    FreshWindow r.2.seekAt r.2.sCDDIBuffer ∧
    ∀ v, r.1 = some v → 0 < v → ∀ i, 0 ≤ i → i < v →
      r.2.seekAt < (r.2.cdChunkBuf (p + i)).tag := by
  intro r
  -- the driver and the read are one run of acts
  have hacts := hw.acts.trans (cdReadData_acts env fuel startAddr n p w)
  have hpost : PostSeek r.2 := Acts.postSeek henv hacts hclean
  refine ⟨hpost.ordered, hpost.fresh.window, fun v hv hpos i h₀ h₁ => ?_⟩
  generalize ht : tryRead env startAddr (checkBuffering env n w).1 fuel
    (checkBuffering env n w).2 = t
  by_cases hfail : ∀ lres, t.1 = some lres → lres < 0
  · have hrun := cdReadData_of_fail env fuel startAddr n p (w := w)
      (by rw [ht]; exact hfail)
    have hv' : t.1 = some v := by rw [← ht, ← hrun]; exact hv
    exact absurd (hfail v hv') (by omega)
  · push Not at hfail
    obtain ⟨lres, hres, hlres⟩ := hfail
    have hrun := cdReadData_of_some env _ _ n p (w := w) (by rw [ht]; exact hres) hlres
    obtain ⟨_, _, hcopy⟩ := cdCopyReadData_same p (2 * wantSampleSize n)
      (checkBuffering env n w).1 (copyState env n t.2)
    rw [ht] at hrun
    have hsame : r.2.sCDDIBuffer = (copyState env n t.2).sCDDIBuffer := by
      simp only [r, hrun, hcopy]
    have hval : (wantSampleSize n : Int) * 4 = v := by
      simp only [r, hrun] at hv
      simpa using hv
    -- the note of the copy says that the ring held as much
    have hle : (wantSampleSize n : Int)
        ≤ singleBufferDataAvailable (copyState env n t.2).sCDDIBuffer := by
      refine hclean (.copied (wantSampleSize n) _) ?_
      rw [hrun, hcopy]
      exact List.mem_cons_self
    -- so each byte copied is one of the window
    have hcell : r.2.cdChunkBuf (p + i) = (copyState env n t.2).sCDDIBuffer.windowByte i := by
      change (cdReadData env fuel startAddr n p w).2.cdChunkBuf (p + i) = _
      rw [hrun]
      exact cdCopyReadData_cell p (checkBuffering env n w).1
        (by rw [← hsame]; exact hpost.fresh.ring) hle h₀ (by omega)
    rw [hcell, ← hsame]
    exact hpost.fresh.window i h₀ (by rw [hsame]; omega)

/-! ### Decks -/

/-- A deck that mounts a disc, answers the first seek and streams. -/
def servingDeck : Env := fun w =>
  if w.datacdEnable = false then ⟨[.mount], false, true⟩
  else if w.waiting = true ∧ 0 < w.seeks ∧ w.answers.all (fun a => a.1 < w.seeks) then
    ⟨[answerTo w.seeks 1], false, true⟩
  else if w.cdifEnable ∧ w.dmaSince = 0 then
    ⟨List.replicate 20 (.dma fun _ => 0), false, true⟩
  else .quiet

theorem servingDeck_obeys : servingDeck.Obeys DeckInTime := by
  have hnone : ∀ (w : World) (e : Event), seekAnswer e = none → DeckInTime w e :=
    fun w e he => ⟨fun i v hi => by simp [he] at hi, fun i v hi => by simp [he] at hi⟩
  intro w
  unfold servingDeck
  split
  · exact ⟨hnone w _ rfl, trivial⟩
  · split
    next h =>
      obtain ⟨hwait, hpos, hall⟩ := h
      refine ⟨⟨fun i v hi => ?_, fun i v hi => ?_⟩, trivial⟩ <;>
        simp only [seekAnswer, answerTo, if_true, Option.some.injEq, Prod.mk.injEq] at hi <;>
        obtain ⟨rfl, -⟩ := hi
      · exact ⟨hpos, le_rfl, by simpa using hall⟩
      · exact ⟨hwait, rfl⟩
    next =>
      split
      · refine (allowed_of_forall fun u e he => ?_)
        rw [List.eq_of_mem_replicate he]
        exact hnone u _ rfl
      · trivial

/-- The first read of a mounted disc copies samples younger than its seek. -/
theorem seek_then_stream_first :
    (cdReadData servingDeck 1 144 1 0 (yield servingDeck World.initial)).2.seekAt
      < ((cdReadData servingDeck 1 144 1 0 (yield servingDeck World.initial)).2.cdChunkBuf
        (0 + 0)).tag :=
  (seek_then_stream ⟨fun blk => blk, fun blk _ => (1, blk)⟩ servingDeck_obeys (k := 1)
    (.turn .init) 1 144 1 0 (by decide +kernel)).2.2 30576 (by decide +kernel)
      (by decide) 0 (by decide) (by decide)

/-- A deck that mounts a disc, answers no seek and streams. -/
def silentDeck : Env := fun w =>
  if w.datacdEnable = false then ⟨[.mount], false, true⟩
  else if w.cdifEnable ∧ w.dmaSince = 0 then
    ⟨List.replicate 20 (.dma fun _ => 0), false, true⟩
  else .quiet

/-- **A seek that has timed out counts as answered.**  The first read of a
mounted disc turns the CDIF on without a response. -/
theorem openStream_unanswered :
    ¬ ∀ (env : Env) (codec : Codec) (k : Nat) (w : World), Reachable env codec k w →
      (∀ m ∈ w.notes, m.Ordered) ∧ FreshWindow w.seekAt w.sCDDIBuffer := by
  intro hall
  have h := (hall silentDeck ⟨fun blk => blk, fun blk _ => (1, blk)⟩ 1 _
    ((Reachable.init.turn).read 144 1 0)).1
  revert h
  decide +kernel

end CdPlayer
