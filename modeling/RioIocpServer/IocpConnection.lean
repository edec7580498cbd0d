import RioIocpServer.Connection
import RioIocpServer.IocpSend
import RioIocpServer.IocpSendLoss

/-!
# Connections with a sending IOCP session

A `WSASend` hands over the addresses of the packets that the shared event holds;
the transport reads these packets until the send completes. A send that fails at
once puts nothing on the wire, a completion of no bytes cuts the stream off, and
any other completion reports the whole batch. Whole packets are lost with a
failed send, so the other end sees a part of the packets queued, in order; it is
an initial part as long as no send of a connected session fails.
-/

namespace RioIocpServer.IocpConnection

open TransitionSystem IocpSend

/-- An IOCP session and the transport that reads the packets of its event. -/
structure Sender (T : Type*) where
  /-- The send side of the session with the threads that use it. -/
  session : IocpSend.State T (List UInt8)
  /-- Bytes taken from the outstanding send. -/
  taken : ℕ
  /-- History: the bytes taken. -/
  emitted : List UInt8

/-- The steps of the session and of the transport. -/
inductive Action (T : Type*) where
  /-- A step of a thread or of the service. -/
  | session (t : T) (a : IocpSend.Action (List UInt8))
  /-- The transport takes the next byte. -/
  | transmit

variable {T : Type*} [DecidableEq T]

/-- One step. A send completes when all its bytes are taken, or is cut off. -/
def step (s : Sender T) : Action T → Option (Sender T)
  | .session t (.complete bytesTransferred) =>
    if bytesTransferred = 0 ∨
        bytesTransferred = s.session.sendBuffer.flatten.length ∧ s.taken = bytesTransferred then
      (IocpSend.step s.session (t, .complete bytesTransferred)).map fun session =>
        { s with session := session, taken := 0 }
    else none
  | .session t a => (IocpSend.step s.session (t, a)).map fun session =>
      { s with session := session }
  | .transmit =>
    if s.session.outstanding = 0 then none
    else s.session.sendBuffer.flatten[s.taken]?.map fun byte =>
      { s with taken := s.taken + 1, emitted := s.emitted ++ [byte] }

/-- The packets are those of the sends accepted. -/
def source : Connection.Source (Sender T) (Action T) where
  step := step
  packets s := s.session.sent.flatten
  emitted s := s.emitted

/-- A session that was just connected. -/
def init : Sender T := ⟨IocpSend.init, 0, []⟩

/-- Whoever calls `Send` hands over a frame. -/
def SendsFrames (_ : Sender T) : Action T → Prop
  | .session _ (.sendCheck packet) => Connection.IsFrame packet
  | _ => True

instance decidableSendsFrames (s : Sender T) : ∀ a, Decidable (SendsFrames s a)
  | .session _ (.sendCheck packet) => inferInstanceAs (Decidable (Connection.IsFrame packet))
  | .session _ .enqueue | .session _ .registerCheck | .session _ .drain | .session _ (.wsaSend _)
  | .session _ .clear | .session _ .storeFalse | .session _ (.complete _) | .session _ .clearSent
  | .session _ .testBytes | .session _ .checkQueue | .session _ .disconnect
  | .transmit => isTrue trivial

/-- A thread that owns nothing or handles a completion of no bytes. -/
def GivesUp {P : Type*} (pc : Pc P) : Prop :=
  pc.owner = 0 ∨ pc = .processSend 0 ∨ pc = .testBytes 0

/-- How far the transport is. -/
inductive Progress (s : Sender T) : Prop
  /-- Everything accepted was taken and completed. -/
  | idle (houtstanding : s.session.outstanding = 0) (htaken : s.taken = 0)
      (hemitted : s.emitted = s.session.sent.flatten.flatten)
  /-- The last batch accepted is being taken. -/
  | busy (done : List (List (List UInt8))) (houtstanding : s.session.outstanding = 1)
      (hsent : s.session.sent = done ++ [s.session.sendBuffer])
      (htaken : s.taken ≤ s.session.sendBuffer.flatten.length)
      (hemitted : s.emitted =
        done.flatten.flatten ++ s.session.sendBuffer.flatten.take s.taken)
  /-- The stream was cut off and nobody will send again. -/
  | cut (houtstanding : s.session.outstanding = 0)
      (hemitted : s.emitted <+: s.session.sent.flatten.flatten)
      (hregistered : s.session.sendRegistered = true)
      (hgivesUp : ∀ t, GivesUp (s.session.threads t))

/-- The invariant of the session and its transport. -/
structure Inv [Fintype T] (s : Sender T) : Prop where
  /-- The invariant of the send path. -/
  session : IocpSend.Inv s.session
  /-- The shared event holds the packets of the `WSASend` about to be called. -/
  holds : ∀ t wsaBuf, s.session.threads t = .wsaSend wsaBuf → s.session.sendBuffer = wsaBuf
  /-- The batches accepted are among those issued. -/
  sent_sublist : s.session.sent.Sublist s.session.issued
  /-- How far the transport is. -/
  progress : Progress s
  /-- The packets queued are frames. -/
  pushed_framed : ∀ packet ∈ s.session.pushed, Connection.IsFrame packet
  /-- So are those about to be queued. -/
  senders_framed : ∀ t packet, s.session.threads t = .send packet → Connection.IsFrame packet

omit [DecidableEq T] in
/-- Nothing is queued, sent or taken at first. -/
theorem inv_init [Fintype T] : Inv (init : Sender T) where
  session := IocpSend.inv_init
  holds _ _ h := by cases h
  sent_sublist := List.Sublist.refl _
  progress := .idle rfl rfl rfl
  pushed_framed _ h := (List.not_mem_nil h).elim
  senders_framed _ _ h := by cases h

section Threads

variable {P : Type*} {s s' : IocpSend.State T P} {t u : T} {a : IocpSend.Action P}

/-- A thread that owns nothing touches neither the shared event nor a send. -/
theorem untouched (h : Moves s t a s') (ht : (s.threads t).owner = 0)
    (ha : ∀ bytesTransferred, a ≠ .complete bytesTransferred) :
    s'.sendBuffer = s.sendBuffer ∧ s'.sent = s.sent ∧ s'.outstanding = s.outstanding := by
  cases h with
  | ignored packet hpc => exact ⟨rfl, rfl, rfl⟩
  | checked packet hpc => exact ⟨rfl, rfl, rfl⟩
  | queued packet hpc hf => exact ⟨rfl, rfl, rfl⟩
  | registered packet hpc hf => exact ⟨rfl, rfl, rfl⟩
  | completed bytesTransferred n hpc ho => exact (ha bytesTransferred rfl).elim
  | disconnected => exact ⟨rfl, rfl, rfl⟩
  | dropped hpc h | entered hpc h | emptied hpc h | again hpc h =>
    rw [hpc] at ht
    cases ht
  | drained hpc | cleared hpc | stored hpc | zeroBytes hpc =>
    rw [hpc] at ht
    cases ht
  | accepted wsaBuf hpc | failed wsaBuf hpc | clearedSent bytes hpc | someBytes bytes hpc =>
    rw [hpc] at ht
    cases ht

/-- Only an accepted `WSASend` and a completion concern the sends under way. -/
theorem sends_kept (h : Moves s t a s') (ha : ∀ bytesTransferred, a ≠ .complete bytesTransferred)
    (hw : a ≠ .wsaSend true) : s'.sent = s.sent ∧ s'.outstanding = s.outstanding := by
  cases h with
  | accepted wsaBuf hpc => exact (hw rfl).elim
  | completed bytesTransferred n hpc ho => exact (ha bytesTransferred rfl).elim
  | _ => exact ⟨rfl, rfl⟩

/-- A thread moved on does what its new position says, the others what they did. -/
theorem givesUp_goto {pc : Pc P} (h : ∀ u, GivesUp (s.threads u)) (hpc : GivesUp pc) (u : T) :
    GivesUp ((s.goto t pc).threads u) := by
  by_cases hu : u = t
  · rw [hu, goto_self]
    exact hpc
  · rw [goto_of_ne s pc hu]
    exact h u

/-- A thread past the flag that handles no completion does not give up. -/
theorem not_givesUp {pc : Pc P} (hown : pc.owner = 1)
    (hpc : ∀ n, pc ≠ .processSend n ∧ pc ≠ .testBytes n) : ¬ GivesUp pc := by
  rintro (h | h | h)
  · rw [hown] at h
    cases h
  · exact (hpc 0).1 h
  · exact (hpc 0).2 h

/-- Once the flag is set and everybody gives up, nobody sends again. -/
theorem cut_kept (h : IocpSend.step s (t, a) = some s') (hreg : s.sendRegistered = true)
    (hup : ∀ u, GivesUp (s.threads u)) (ho : s.outstanding = 0) :
    s'.sendRegistered = true ∧ (∀ u, GivesUp (s'.threads u)) ∧ s'.sent = s.sent ∧
      s'.outstanding = 0 := by
  have hnot : ∀ pc : Pc P, s.threads t = pc → pc.owner = 1 →
      (∀ n, pc ≠ .processSend n ∧ pc ≠ .testBytes n) → False := by
    intro pc hpc hown hne
    have ht := hup t
    rw [hpc] at ht
    exact not_givesUp hown hne ht
  cases step_moves h with
  | ignored packet hpc => exact ⟨hreg, hup, rfl, ho⟩
  | checked packet hpc => exact ⟨hreg, givesUp_goto hup (.inl rfl), rfl, ho⟩
  | queued packet hpc hf => exact ⟨rfl, givesUp_goto hup (.inl rfl), rfl, ho⟩
  | registered packet hpc hf =>
    rw [hreg] at hf
    cases hf
  | completed bytesTransferred n hpc hout =>
    rw [ho] at hout
    cases hout
  | disconnected => exact ⟨hreg, hup, rfl, ho⟩
  | clearedSent bytes hpc =>
    have ht := hup t
    rw [hpc] at ht
    obtain ht | ht | ht := ht
    · cases ht
    · cases ht
      exact ⟨hreg, givesUp_goto hup (.inr (.inr rfl)), rfl, ho⟩
    · cases ht
  | zeroBytes hpc => exact ⟨hreg, givesUp_goto hup (.inl rfl), rfl, ho⟩
  | someBytes bytes hpc =>
    -- the test has found that there are bytes
    have ht := hup t
    rw [hpc] at ht
    obtain ht | ht | ht := ht
    · cases ht
    · cases ht
    · cases ht
      simp only [IocpSend.step, hpc, if_pos] at h
      have hpc' := congrArg (fun m : IocpSend.State T P => m.threads t) (Option.some.inj h)
      simp only [goto_self] at hpc'
      cases hpc'
  | dropped hpc h | entered hpc h | emptied hpc h | again hpc h =>
    exact (hnot _ hpc rfl (by simp)).elim
  | drained hpc | cleared hpc | stored hpc => exact (hnot _ hpc rfl (by simp)).elim
  | accepted wsaBuf hpc | failed wsaBuf hpc => exact (hnot _ hpc rfl (by simp)).elim

end Threads

section Invariant

variable [Fintype T] {s s' : Sender T} {t : T}

omit [DecidableEq T] in
/-- While a send is outstanding no thread owns anything. -/
theorem owner_eq_zero (inv : IocpSend.Inv s.session) (ho : s.session.outstanding = 1) (u : T) :
    (s.session.threads u).owner = 0 := by
  have htokens := inv.tokens
  have hflag := s.session.sendRegistered.toNat_le
  have hle := ThreadSum.le_sum Pc.owner s.session.threads u
  omega

/-- A step that completes nothing: the transport is as far as it was, or has a new
batch to take. -/
theorem progress_session (inv : Inv s) {a : IocpSend.Action (List UInt8)}
    {session : IocpSend.State T (List UInt8)}
    (ha : ∀ bytesTransferred, a ≠ .complete bytesTransferred)
    (h : IocpSend.step s.session (t, a) = some session) :
    Progress { s with session := session } := by
  have hm := step_moves h
  rcases inv.progress with ⟨hout, htaken, hemitted⟩ | ⟨done, hout, hsent, htaken, hemitted⟩ |
    ⟨hout, hemitted, hreg, hup⟩
  · by_cases hw : a = .wsaSend true
    · subst hw
      cases hm with
      | accepted wsaBuf hpc =>
        have hholds := inv.holds t wsaBuf hpc
        refine .busy s.session.sent ?_ ?_ ?_ ?_
        · show s.session.outstanding + 1 = 1
          rw [hout]
        · show s.session.sent ++ [wsaBuf] = s.session.sent ++ [s.session.sendBuffer]
          rw [hholds]
        · show s.taken ≤ s.session.sendBuffer.flatten.length
          rw [htaken]
          exact Nat.zero_le _
        · show s.emitted = s.session.sent.flatten.flatten ++
            s.session.sendBuffer.flatten.take s.taken
          rw [htaken, List.take_zero, List.append_nil]
          exact hemitted
    · obtain ⟨hsent, hout'⟩ := sends_kept hm ha hw
      refine .idle (hout'.trans hout) htaken ?_
      show s.emitted = session.sent.flatten.flatten
      rw [hsent]
      exact hemitted
  · obtain ⟨hbuffer, hsent', hout'⟩ := untouched hm (owner_eq_zero inv.session hout t) ha
    refine .busy done (hout'.trans hout) ?_ ?_ ?_
    · rw [hsent', hbuffer]
      exact hsent
    · dsimp only
      rw [hbuffer]
      exact htaken
    · dsimp only
      rw [hbuffer]
      exact hemitted
  · obtain ⟨hreg', hup', hsent, hout'⟩ := cut_kept h hreg hup hout
    refine .cut hout' ?_ hreg' hup'
    show s.emitted <+: session.sent.flatten.flatten
    rw [hsent]
    exact hemitted

/-- A completion ends the outstanding send or cuts the stream off. -/
theorem progress_complete (inv : Inv s) {bytesTransferred : ℕ}
    {session : IocpSend.State T (List UInt8)}
    (hbytes : bytesTransferred = 0 ∨
      bytesTransferred = s.session.sendBuffer.flatten.length ∧ s.taken = bytesTransferred)
    (h : IocpSend.step s.session (t, .complete bytesTransferred) = some session) :
    Progress { s with session := session, taken := 0 } := by
  cases step_moves h with
  | completed bytes n hpc ho =>
    rcases inv.progress with ⟨hout, -, -⟩ | ⟨done, hout, hsent, htaken, hemitted⟩ | ⟨hout, -, -, -⟩
    · rw [ho] at hout
      cases hout
    · have hn : n = 0 := by omega
      have hall : s.session.sent.flatten.flatten =
          done.flatten.flatten ++ s.session.sendBuffer.flatten := by
        rw [hsent, List.flatten_append, List.flatten_append, List.flatten_singleton]
      rcases hbytes with rfl | ⟨hlen, htake⟩
      · refine .cut hn ?_ ?_ ?_
        · show s.emitted <+: s.session.sent.flatten.flatten
          rw [hall, hemitted]
          exact (List.prefix_append_right_inj _).mpr (List.take_prefix _ _)
        · show s.session.sendRegistered = true
          have htokens := inv.session.tokens
          cases hf : s.session.sendRegistered
          · rw [hf, Bool.toNat_false] at htokens
            omega
          · rfl
        · exact givesUp_goto (fun u => .inl (owner_eq_zero inv.session hout u)) (.inr (.inl rfl))
      · refine .idle hn rfl ?_
        show s.emitted = s.session.sent.flatten.flatten
        rw [hall, hemitted, htake, hlen, List.take_length]
    · rw [ho] at hout
      cases hout

/-- The shared event keeps the packets of a `WSASend` about to be called. -/
theorem holds_step (inv : Inv s) {a : IocpSend.Action (List UInt8)}
    {session : IocpSend.State T (List UInt8)} (hm : Moves s.session t a session) {u : T}
    {wsaBuf : List (List UInt8)} (hu : session.threads u = .wsaSend wsaBuf) :
    session.sendBuffer = wsaBuf := by
  have hother : ∀ pc : Pc (List UInt8), (∀ b, pc ≠ .wsaSend b) →
      (s.session.goto t pc).threads u = .wsaSend wsaBuf →
      u ≠ t ∧ s.session.threads u = .wsaSend wsaBuf := by
    intro pc hpc hgoto
    by_cases hut : u = t
    · rw [hut, goto_self] at hgoto
      exact (hpc wsaBuf hgoto).elim
    · exact ⟨hut, (goto_of_ne s.session pc hut).symm.trans hgoto⟩
  -- an owner that changes the event excludes another one before its `WSASend`
  have hnone : (s.session.threads t).owner = 1 → u ≠ t → s.session.threads u = .wsaSend wsaBuf →
      False := by
    intro hown hut hu
    exact hut (inv.session.owner_unique (by rw [hu]; rfl) hown)
  cases hm with
  | ignored packet hpc => exact inv.holds u wsaBuf hu
  | disconnected => exact inv.holds u wsaBuf hu
  | drained hpc =>
    by_cases hut : u = t
    · rw [hut] at hu
      exact Pc.wsaSend.inj ((goto_self s.session t _).symm.trans hu)
    · exact (hnone (by rw [hpc]; rfl) hut ((goto_of_ne s.session _ hut).symm.trans hu)).elim
  | cleared hpc =>
    obtain ⟨hut, hu'⟩ := hother .cleared (by simp) hu
    exact (hnone (by rw [hpc]; rfl) hut hu').elim
  | clearedSent bytes hpc =>
    obtain ⟨hut, hu'⟩ := hother (.testBytes bytes) (by simp) hu
    exact (hnone (by rw [hpc]; rfl) hut hu').elim
  | _ => exact inv.holds u wsaBuf (hother _ (by simp) hu).2

/-- The batches accepted stay among those issued. -/
theorem sublist_step (inv : Inv s) {a : IocpSend.Action (List UInt8)}
    {session : IocpSend.State T (List UInt8)} (hm : Moves s.session t a session) :
    session.sent.Sublist session.issued := by
  have hsub := inv.sent_sublist
  cases hm with
  | accepted wsaBuf hpc => exact hsub.append (List.Sublist.refl _)
  | failed wsaBuf hpc => exact hsub.trans (List.sublist_append_left _ _)
  | _ => exact hsub

omit [Fintype T] in
/-- What holds of the packets queued or about to be, and of every packet handed over,
stays true of them. -/
theorem packets_step {P : List UInt8 → Prop} {a : IocpSend.Action (List UInt8)}
    {session session' : IocpSend.State T (List UInt8)}
    (hpushed : ∀ packet ∈ session.pushed, P packet)
    (hsenders : ∀ u packet, session.threads u = .send packet → P packet)
    (hok : ∀ packet, a = .sendCheck packet → P packet) (hm : Moves session t a session') :
    (∀ packet ∈ session'.pushed, P packet) ∧
      ∀ u packet, session'.threads u = .send packet → P packet := by
  have hgoto : ∀ pc : Pc (List UInt8), (∀ p, pc = .send p → P p) →
      ∀ u packet, (session.goto t pc).threads u = .send packet → P packet := by
    intro pc hpc u packet hu
    by_cases hut : u = t
    · rw [hut, goto_self] at hu
      exact hpc packet hu
    · exact hsenders u packet ((goto_of_ne session pc hut).symm.trans hu)
  have hqueued : ∀ packet, session.threads t = .send packet →
      ∀ p ∈ session.pushed ++ [packet], P p := by
    intro packet hpc p hp
    rcases List.mem_append.mp hp with hp | hp
    · exact hpushed p hp
    · rw [List.mem_singleton.mp hp]
      exact hsenders t packet hpc
  cases hm with
  | ignored packet hpc => exact ⟨hpushed, hsenders⟩
  | disconnected => exact ⟨hpushed, hsenders⟩
  | checked packet hpc =>
    refine ⟨hpushed, hgoto _ fun p hp => ?_⟩
    rw [← Pc.send.inj hp]
    exact hok packet rfl
  | queued packet hpc hf => exact ⟨hqueued packet hpc, hgoto _ (by simp)⟩
  | registered packet hpc hf => exact ⟨hqueued packet hpc, hgoto _ (by simp)⟩
  | _ => exact ⟨hpushed, hgoto _ (by simp)⟩

/-- The packets stay frames when only frames are handed over. -/
theorem framed_step (inv : Inv s) {a : IocpSend.Action (List UInt8)}
    {session : IocpSend.State T (List UInt8)} (hok : SendsFrames s (.session t a))
    (hm : Moves s.session t a session) :
    (∀ packet ∈ session.pushed, Connection.IsFrame packet) ∧
      ∀ u packet, session.threads u = .send packet → Connection.IsFrame packet := by
  refine packets_step inv.pushed_framed inv.senders_framed (fun packet ha => ?_) hm
  rwa [ha] at hok

omit [DecidableEq T] in
/-- The transport takes the next byte of the batch. -/
theorem inv_transmit (inv : Inv s) {byte : UInt8} (ho : s.session.outstanding ≠ 0)
    (h : s.session.sendBuffer.flatten[s.taken]? = some byte) :
    Inv { s with taken := s.taken + 1, emitted := s.emitted ++ [byte] } := by
  refine ⟨inv.session, inv.holds, inv.sent_sublist, ?_, inv.pushed_framed, inv.senders_framed⟩
  rcases inv.progress with ⟨hout, -, -⟩ | ⟨done, hout, hsent, htaken, hemitted⟩ | ⟨hout, -, -, -⟩
  · exact (ho hout).elim
  · obtain ⟨hlt, -⟩ := List.getElem?_eq_some_iff.mp h
    refine .busy done hout hsent hlt ?_
    dsimp only
    rw [List.take_add_one, h, hemitted, List.append_assoc, Option.toList_some]
  · exact (ho hout).elim

omit [Fintype T] in
/-- A step of the session is one of its own steps. -/
theorem session_of_step {a : IocpSend.Action (List UInt8)} (h : step s (.session t a) = some s') :
    ∃ session taken, IocpSend.step s.session (t, a) = some session ∧
      s' = { s with session := session, taken := taken } ∧
      ((∀ bytesTransferred, a ≠ .complete bytesTransferred) ∧ taken = s.taken ∨
        ∃ bytesTransferred, a = .complete bytesTransferred ∧ taken = 0 ∧
          (bytesTransferred = 0 ∨ bytesTransferred = s.session.sendBuffer.flatten.length ∧
            s.taken = bytesTransferred)) := by
  by_cases ha : ∃ bytesTransferred, a = .complete bytesTransferred
  · obtain ⟨bytesTransferred, rfl⟩ := ha
    simp only [step] at h
    split at h
    · obtain ⟨session, hsession, rfl⟩ := Option.map_eq_some_iff.mp h
      exact ⟨session, 0, hsession, rfl, .inr ⟨bytesTransferred, rfl, rfl, ‹_›⟩⟩
    · cases h
  · have hne : ∀ bytesTransferred, a ≠ .complete bytesTransferred := fun b hb => ha ⟨b, hb⟩
    have hstep : step s (.session t a) =
        (IocpSend.step s.session (t, a)).map fun session => { s with session := session } := by
      cases a <;> first | rfl | exact (hne _ rfl).elim
    rw [hstep] at h
    obtain ⟨session, hsession, rfl⟩ := Option.map_eq_some_iff.mp h
    exact ⟨session, s.taken, hsession, rfl, .inl ⟨hne, rfl⟩⟩

omit [Fintype T] in
/-- A step that takes a byte. -/
theorem transmit_of_step (h : step s .transmit = some s') : s.session.outstanding ≠ 0 ∧
    ∃ byte, s.session.sendBuffer.flatten[s.taken]? = some byte ∧
      s' = { s with taken := s.taken + 1, emitted := s.emitted ++ [byte] } := by
  simp only [step] at h
  split at h
  · cases h
  · obtain ⟨byte, hbyte, rfl⟩ := Option.map_eq_some_iff.mp h
    exact ⟨‹_›, byte, hbyte, rfl⟩

/-- Every step keeps the invariant. -/
theorem inv_step (inv : Inv s) {a : Action T} (hok : SendsFrames s a)
    (h : step s a = some s') : Inv s' := by
  cases a with
  | transmit =>
    obtain ⟨ho, byte, hbyte, rfl⟩ := transmit_of_step h
    exact inv_transmit inv ho hbyte
  | session t a =>
    obtain ⟨session, taken, hsession, rfl, hkind⟩ := session_of_step h
    have hm := step_moves hsession
    obtain ⟨hpushed, hsenders⟩ := framed_step inv hok hm
    refine ⟨IocpSend.inv_step inv.session hsession, fun u wsaBuf => holds_step inv hm,
      sublist_step inv hm, ?_, hpushed, hsenders⟩
    rcases hkind with ⟨ha, rfl⟩ | ⟨bytesTransferred, rfl, rfl, hbytes⟩
    · exact progress_session inv ha hsession
    · exact progress_complete inv hbytes hsession

omit [DecidableEq T] in
/-- The bytes taken are the first bytes of the batches accepted. -/
theorem emitted_prefix (inv : Inv s) : s.emitted <+: s.session.sent.flatten.flatten := by
  rcases inv.progress with ⟨-, -, hemitted⟩ | ⟨done, -, hsent, -, hemitted⟩ | ⟨-, hemitted, -, -⟩
  · rw [hemitted]
  · rw [hemitted, hsent, List.flatten_append, List.flatten_append, List.flatten_singleton]
    exact (List.prefix_append_right_inj _).mpr (List.take_prefix _ _)
  · exact hemitted

omit [DecidableEq T] in
/-- The packets accepted are among those queued, in order. -/
theorem sent_sublist_pushed (inv : Inv s) :
    s.session.sent.flatten.Sublist s.session.pushed := by
  obtain ⟨batch, -, horder⟩ := inv.session.inOrder
  rw [← horder, List.append_assoc]
  exact inv.sent_sublist.flatten.trans (List.sublist_append_left _ _)

/-- An IOCP session sends frames. -/
theorem source_framed : (source : Connection.Source (Sender T) (Action T)).Framed Inv
    SendsFrames where
  kept _ _ _ inv hok h := inv_step inv hok h
  packets_grow s a s' _ _ h := by
    cases a with
    | transmit =>
      obtain ⟨-, byte, -, rfl⟩ := transmit_of_step h
      exact List.prefix_rfl
    | session t a =>
      obtain ⟨session, taken, hsession, rfl, -⟩ := session_of_step h
      show s.session.sent.flatten <+: session.sent.flatten
      cases step_moves hsession with
      | accepted wsaBuf hpc =>
        rw [show (s.session.sent ++ [wsaBuf]).flatten = s.session.sent.flatten ++ wsaBuf by simp]
        exact List.prefix_append _ _
      | _ => exact List.prefix_rfl
  emitted_grows s a s' _ _ h := by
    cases a with
    | transmit =>
      obtain ⟨-, byte, -, rfl⟩ := transmit_of_step h
      exact List.prefix_append _ _
    | session t a =>
      obtain ⟨session, taken, -, rfl, -⟩ := session_of_step h
      exact List.prefix_rfl
  emitted_prefix _ inv := emitted_prefix inv
  framed _ inv packet hp := inv.pushed_framed packet ((sent_sublist_pushed inv).subset hp)

end Invariant

section Order

variable [Fintype T]

/-- A `WSASend` fails at once only when the session is no longer connected. -/
def FailsDisconnected (s : Sender T) : Action T → Prop
  | .session t a => IocpSend.FailsDisconnected s.session (t, a)
  | .transmit => True

instance decidableFailsDisconnected (s : Sender T) : ∀ a, Decidable (FailsDisconnected s a)
  | .session _ a => inferInstanceAs (Decidable (a = .wsaSend false → s.session.connected = false))
  | .transmit => isTrue trivial

/-- Frames are handed over, and only a disconnected session has a send fail at once. -/
def SendsAll (s : Sender T) (a : Action T) : Prop := SendsFrames s a ∧ FailsDisconnected s a

instance decidableSendsAll (s : Sender T) (a : Action T) : Decidable (SendsAll s a) :=
  inferInstanceAs (Decidable (SendsFrames s a ∧ FailsDisconnected s a))

/-- The batches accepted are the first ones issued; after a failure no further batch is
collected. -/
structure Ordered (s : IocpSend.State T (List UInt8)) : Prop where
  /-- What a connected session keeps. -/
  kept : Kept s
  /-- No batch is accepted after a failed one. -/
  sent_prefix : s.sent <+: s.issued
  /-- After a failure the session is disconnected and nobody collects a batch. -/
  failed : s.sent ≠ s.issued → s.connected = false ∧
    ∀ t, s.threads t ≠ .drain ∧ ∀ batch, s.threads t ≠ .wsaSend batch

end Order

/-- A packet is queued, sent and received while a second one is lost with a failed send. -/
def sendTwo : List (Connection.Action (Action Bool)) :=
  [.send (.session true (.sendCheck [5, 0, 7, 0, 9])), .send (.session true .enqueue),
    .send (.session true .registerCheck), .send (.session true .drain),
    .send (.session true (.wsaSend false)), .send (.session true .clear),
    .send (.session true .storeFalse), .send (.session false (.sendCheck [4, 0, 8, 0])),
    .send (.session false .enqueue), .send (.session false .registerCheck),
    .send (.session false .drain), .send (.session false (.wsaSend true)), .send .transmit,
    .send .transmit, .send .transmit, .receive 3 true, .send .transmit, .receive 1 true,
    .send (.session true (.complete 4))]

/-- Nothing is left on the way of a connected session: no packet queued, no thread past the
flag, no send outstanding, no byte in flight. -/
structure Drained (s : Connection.State (Sender T)) : Prop where
  /-- The session is connected. -/
  connected : s.sender.session.connected = true
  /-- The queue is empty. -/
  queue_eq : s.sender.session.sendBufferQueue = []
  /-- No thread is sending. -/
  owners_eq : ∀ t, (s.sender.session.threads t).owner = 0
  /-- No send is outstanding. -/
  outstanding_eq : s.sender.session.outstanding = 0
  /-- All bytes taken are received. -/
  inFlight_eq : source.inFlight s = []

/-- Where nothing is left on the way, all packets were accepted and received. -/
theorem Drained.received [Fintype T] {s : Connection.State (Sender T)} (h : Drained s)
    (inv : Inv s.sender) (kept : Kept s.sender.session)
    (hreceived : s.received <+: s.sender.emitted) :
    s.sender.session.sent.flatten = s.sender.session.pushed ∧
      s.received.length = s.sender.session.sent.flatten.flatten.length := by
  obtain ⟨batch, hholds, horder⟩ := inv.session.inOrder
  have hbatch : batch = [] := by
    refine hholds.eq_nil_or.resolve_right ?_
    rintro ⟨t, ht⟩
    have hown := h.owners_eq t
    rw [ht] at hown
    cases hown
  rw [hbatch, h.queue_eq, List.append_nil, List.append_nil, ← kept.sent_eq h.connected] at horder
  have hleft : s.sender.emitted.length ≤ s.received.length := List.drop_eq_nil_iff.mp h.inFlight_eq
  have hle := hreceived.length_le
  refine ⟨horder, ?_⟩
  rcases inv.progress with ⟨-, -, hemitted⟩ | ⟨done, hout, -, -, -⟩ | ⟨-, -, hreg, -⟩
  · rw [hemitted] at hleft hle
    omega
  · rw [h.outstanding_eq] at hout
    cases hout
  · -- a stream that was cut off has an owner or is disconnected
    have htokens := kept.tokens_eq h.connected
    rw [hreg, h.outstanding_eq, Finset.sum_eq_zero fun t _ => h.owners_eq t] at htokens
    cases htokens

/-- The invariant of a connection together with the order of the batches. -/
structure Follows [Fintype T] (c : SessionClass) (s : Connection.State (Sender T)) : Prop where
  /-- The invariant of the connection. -/
  connection : Connection.Inv source c Inv s
  /-- The batches accepted are the first ones issued. -/
  ordered : Ordered s.sender.session

/-- Two threads queue packets; the first one sends both, and a third packet is sent when the
completion finds it queued. -/
def sendThree : List (Connection.Action (Action Bool)) :=
  [.send (.session true (.sendCheck [5, 0, 7, 0, 9])), .send (.session true .enqueue),
    .send (.session false (.sendCheck [4, 0, 8, 0])), .send (.session false .enqueue),
    .send (.session true .registerCheck), .send (.session true .drain),
    .send (.session true (.wsaSend true)), .send .transmit, .send .transmit, .send .transmit,
    .send .transmit, .send .transmit, .send .transmit, .receive 6 true,
    .send (.session false (.sendCheck [4, 0, 7, 0])), .send (.session false .enqueue),
    .send .transmit, .send .transmit, .send .transmit, .send (.session true (.complete 9)),
    .send (.session true .clearSent), .send (.session true .testBytes),
    .send (.session true .checkQueue), .send (.session true .registerCheck),
    .send (.session true .drain), .send (.session true (.wsaSend true)), .send .transmit,
    .send .transmit, .receive 5 true, .send .transmit, .send .transmit, .receive 2 true]

end RioIocpServer.IocpConnection
