import RioIocpServer.TransitionSystem
import Mathlib.Data.Rat.Floor
import Mathlib.Algebra.Order.Floor.Semiring
import Mathlib.Tactic.Linarith
import Mathlib.Tactic.FieldSimp

/-!
# The sender threads of the stress test

In normal mode the main thread sets `m_bRunClient`, fills `m_sendTime` and clears the flag
at the end of the test; from then on it disconnects clients. Each sender thread goes
through the clients that are its own, again and again, and calls `SendPacket` for each one
whose last call is old enough. `SendPacket` sends a position if the client is logged in, a
login if none is under way, and else nothing. The clock is read in milliseconds and does
not go back. `ResetSendTime` adds a share of the second to each time in floating point; the
times are part of the step, and none of them is before the clock. An access outside
`m_sendTime` has no defined meaning; here it is recorded and ends the pass.
-/

namespace RioIocpServer.StressTest

open TransitionSystem

/-- `PACKET_SEND_DURATION`. -/
def packetSendDuration : ℤ := 1000

/-- `STRESS_TEST_TIME_SEC`. -/
def stressTestTimeSec : ℤ := 6000

/-- `m_jobCnt`. -/
def jobCnt (clientNum threadCnt : ℕ) : ℕ := ⌈(clientNum : ℚ) / threadCnt⌉₊

/-- `sIdx`, the client of a round. -/
def sIdx (threadCnt i idx : ℕ) : ℕ := i * threadCnt + idx

/-- What `SendPacket` may send. -/
inductive Packet where
  /-- `SendLogin`. -/
  | login
  /-- `SendMove`. -/
  | move
  deriving DecidableEq

/-- A `ClientSession`. -/
structure Session where
  /-- `m_bConnected` of the `IocpSession`. -/
  bConnected : Bool
  /-- `m_bConnect`. -/
  bConnect : Bool
  /-- `m_bStartLogin`. -/
  bStartLogin : Bool
  /-- `m_bLogin`. -/
  bLogin : Bool
  deriving DecidableEq

/-- What `m_sessions` has for a client. -/
inductive Entry where
  /-- Nothing yet. -/
  | absent
  /-- A `weak_ptr` to a session that is there. -/
  | alive (session : Session)
  /-- A `weak_ptr` to a session that is no longer there. -/
  | expired
  deriving DecidableEq

/-- `IocpSession::Send`: a session that is not connected sends nothing. -/
def Session.send (session : Session) (packet : Packet) : Option Packet :=
  if session.bConnected = true then some packet else none

/-- `TestSessionManager::SendPacket`: what is sent, and what `m_sessions` has after it. -/
def sendPacket : Entry → Option Packet × Entry
  | .alive session =>
    if session.bLogin = true then (session.send .move, .alive session)
    else if session.bConnect = true ∧ session.bStartLogin = false then
      (session.send .login, .alive { session with bStartLogin := true })
    else (none, .alive session)
  | entry => (none, entry)

/-- `TestSessionManager::Disconnect`. -/
def disconnect : Entry → Entry
  | .alive session => .alive { session with bConnected := false }
  | entry => entry

/-- What other threads do to a client. -/
inductive Event where
  /-- `OnConnected`. -/
  | onConnected
  /-- `Handle_LOGIN_RESULT` of a login that went well. -/
  | loginResult
  /-- The session is disconnected. -/
  | disconnected
  /-- The session ends. -/
  | ended
  deriving DecidableEq

/-- What `m_sessions` has after it. -/
def Event.apply : Event → Entry → Option Entry
  | .onConnected, .absent => some (.alive ⟨true, true, false, false⟩)
  | .loginResult, .alive session => some (.alive { session with bLogin := true })
  | .disconnected, .alive session => some (.alive { session with bConnected := false })
  | .ended, .alive _ => some .expired
  | _, _ => none

/-- Where a sender thread stands in `SendToServer`. -/
inductive Pc where
  /-- Outside. -/
  | outside
  /-- At the tests of a round of the loop. -/
  | test (i : ℕ)
  /-- At the store to `m_sendTime`. -/
  | stamp (i : ℕ)
  /-- At `SendPacket`, with the time it has stored. -/
  | send (i : ℕ) (time : ℤ)
  deriving DecidableEq

/-- Where the main thread stands. -/
inductive MainPc where
  /-- Before `StartNormalMode`. -/
  | created
  /-- `m_bRunClient` is set; at `ResetSendTime`. -/
  | started
  /-- The test is running. -/
  | running
  /-- The test is stopped; at the tests of a round of `DisconnectFromServer`. -/
  | test (idx i : ℕ)
  /-- At the store to `m_sendTime`. -/
  | stamp (idx i : ℕ)
  /-- At `Disconnect`. -/
  | disconnect (idx i : ℕ)
  /-- At the end. -/
  | done
  deriving DecidableEq

/-- A call of `SendPacket`. -/
structure Call where
  /-- The time stored for it. -/
  stored : ℤ
  /-- When it is made. -/
  time : ℤ
  /-- What it sends. -/
  packet : Option Packet
  deriving DecidableEq

/-- The test. -/
structure State (threadCnt : ℕ) where
  /-- The clock. -/
  now : ℤ
  /-- `m_bRunClient`. -/
  bRunClient : Bool
  /-- `m_startTime`, in seconds. -/
  startSec : ℤ
  /-- `m_sendTime`. -/
  sendTime : List ℤ
  /-- `startTime` of `ResetSendTime`. -/
  startTime : ℤ
  /-- `m_sessions`. -/
  sessions : ℕ → Entry
  /-- The main thread. -/
  main : MainPc
  /-- The sender threads. -/
  pc : Fin threadCnt → Pc
  /-- History: an access was outside `m_sendTime`. -/
  outOfRange : Bool
  /-- History: the calls of `SendPacket` for each client. -/
  calls : ℕ → List Call

/-- The steps. -/
inductive Action (threadCnt : ℕ) where
  /-- Time passes. -/
  | tick (time : ℕ)
  /-- Something happens to a client. -/
  | session (x : ℕ) (event : Event)
  /-- `m_bRunClient` is set. -/
  | start
  /-- `ResetSendTime`. -/
  | resetSendTime (times : List ℤ)
  /-- `m_bRunClient` is cleared. -/
  | stop
  /-- The main thread goes on in `DisconnectFromServer`. -/
  | disconnect
  /-- A sender thread calls `SendToServer` and finds `m_bRunClient` set. -/
  | sendToServer (idx : Fin threadCnt)
  /-- It goes on. -/
  | proceed (idx : Fin threadCnt)
  deriving DecidableEq

section System

variable {threadCnt : ℕ}

/-- A test that was just created. -/
def init (now : ℤ) : State threadCnt where
  now := now
  bRunClient := false
  startSec := 0
  sendTime := []
  startTime := 0
  sessions _ := .absent
  main := .created
  pc _ := .outside
  outOfRange := false
  calls _ := []

/-- The client of a round of a sender thread. -/
def slot (idx : Fin threadCnt) (i : ℕ) : ℕ := sIdx threadCnt i idx

/-- A thread moves on. -/
def State.goto (s : State threadCnt) (idx : Fin threadCnt) (pc : Pc) : State threadCnt :=
  { s with pc := Function.update s.pc idx pc }

/-- `SendPacket` for the client of a round. -/
def State.send (s : State threadCnt) (idx : Fin threadCnt) (i : ℕ) (time : ℤ) :
    State threadCnt :=
  { s.goto idx (.test (i + 1)) with
    sessions := Function.update s.sessions (slot idx i) (sendPacket (s.sessions (slot idx i))).2
    calls := Function.update s.calls (slot idx i)
      (s.calls (slot idx i) ++ [⟨time, s.now, (sendPacket (s.sessions (slot idx i))).1⟩]) }

/-- One step of a test with `clientNum` clients. -/
def step (clientNum : ℕ) (s : State threadCnt) : Action threadCnt → Option (State threadCnt)
  | .tick time => some { s with now := s.now + time }
  | .session x event =>
    (event.apply (s.sessions x)).map fun entry =>
      { s with sessions := Function.update s.sessions x entry }
  | .start =>
    match s.main with
    | .created => some { s with bRunClient := true, startSec := s.now / 1000, main := .started }
    | _ => none
  | .resetSendTime times =>
    match s.main with
    | .started =>
      if times.length = clientNum ∧ ∀ time ∈ times, s.now ≤ time then
        some { s with sendTime := times, startTime := s.now, main := .running }
      else none
    | _ => none
  | .stop =>
    match s.main with
    | .running =>
      if stressTestTimeSec < s.now / 1000 - s.startSec then
        some { s with bRunClient := false, main := .test 0 0 }
      else none
    | _ => none
  | .disconnect =>
    match s.main with
    | .test idx i =>
      if idx < clientNum then
        if i < jobCnt clientNum threadCnt then
          if clientNum ≤ sIdx threadCnt i idx then some { s with main := .test (idx + 1) 0 }
          else
            match s.sendTime[sIdx threadCnt i idx]? with
            | some time =>
              if s.now - time < packetSendDuration then some { s with main := .test idx (i + 1) }
              else some { s with main := .stamp idx i }
            | none => some { s with main := .test (idx + 1) 0, outOfRange := true }
        else some { s with main := .test (idx + 1) 0 }
      else some { s with main := .done }
    | .stamp idx i =>
      some { s with
        sendTime := s.sendTime.set (sIdx threadCnt i idx) s.now
        main := .disconnect idx i }
    | .disconnect idx i =>
      some { s with
        sessions := Function.update s.sessions (sIdx threadCnt i idx)
          (disconnect (s.sessions (sIdx threadCnt i idx)))
        main := .test idx (i + 1) }
    | _ => none
  | .sendToServer idx =>
    match s.pc idx with
    | .outside => if s.bRunClient = true then some (s.goto idx (.test 0)) else none
    | _ => none
  | .proceed idx =>
    match s.pc idx with
    | .test i =>
      if i < jobCnt clientNum threadCnt then
        if clientNum ≤ slot idx i then some (s.goto idx .outside)
        else
          match s.sendTime[slot idx i]? with
          | some time =>
            if s.now - time < packetSendDuration then some (s.goto idx (.test (i + 1)))
            else some (s.goto idx (.stamp i))
          | none => some { s.goto idx .outside with outOfRange := true }
      else some (s.goto idx .outside)
    | .stamp i =>
      some { s.goto idx (.send i s.now) with sendTime := s.sendTime.set (slot idx i) s.now }
    | .send i time => some (s.send idx i time)
    | .outside => none

/-- What one step can do, with what it has tested. -/
inductive Moves (clientNum : ℕ) (s : State threadCnt) : Action threadCnt → State threadCnt → Prop
  | ticked (time : ℕ) : Moves clientNum s (.tick time) { s with now := s.now + time }
  | changed {x : ℕ} {event : Event} {entry : Entry}
      (hentry : event.apply (s.sessions x) = some entry) :
      Moves clientNum s (.session x event)
        { s with sessions := Function.update s.sessions x entry }
  | started (hmain : s.main = .created) :
      Moves clientNum s .start
        { s with bRunClient := true, startSec := s.now / 1000, main := .started }
  | reset (hmain : s.main = .started) {times : List ℤ} (hlength : times.length = clientNum)
      (htimes : ∀ time ∈ times, s.now ≤ time) :
      Moves clientNum s (.resetSendTime times)
        { s with sendTime := times, startTime := s.now, main := .running }
  | stopped (hmain : s.main = .running) :
      Moves clientNum s .stop { s with bRunClient := false, main := .test 0 0 }
  | mainPassed {idx i idx' i' : ℕ} (hmain : s.main = .test idx i)
      (hnext : (idx', i') = (idx, i + 1) ∨ (idx', i') = (idx + 1, 0)) :
      Moves clientNum s .disconnect { s with main := .test idx' i' }
  | mainDone {idx i : ℕ} (hmain : s.main = .test idx i) :
      Moves clientNum s .disconnect { s with main := .done }
  | mainChosen {idx i : ℕ} {time : ℤ} (hmain : s.main = .test idx i)
      (htime : s.sendTime[sIdx threadCnt i idx]? = some time)
      (hdue : packetSendDuration ≤ s.now - time) :
      Moves clientNum s .disconnect { s with main := .stamp idx i }
  | mainMissed {idx i : ℕ} (hmain : s.main = .test idx i)
      (hslot : sIdx threadCnt i idx < clientNum)
      (htime : s.sendTime[sIdx threadCnt i idx]? = none) :
      Moves clientNum s .disconnect { s with main := .test (idx + 1) 0, outOfRange := true }
  | mainStamped {idx i : ℕ} (hmain : s.main = .stamp idx i) :
      Moves clientNum s .disconnect { s with
        sendTime := s.sendTime.set (sIdx threadCnt i idx) s.now
        main := .disconnect idx i }
  | disconnected {idx i : ℕ} (hmain : s.main = .disconnect idx i) :
      Moves clientNum s .disconnect { s with
        sessions := Function.update s.sessions (sIdx threadCnt i idx)
          (disconnect (s.sessions (sIdx threadCnt i idx)))
        main := .test idx (i + 1) }
  | entered {idx : Fin threadCnt} (hpc : s.pc idx = .outside) (hrun : s.bRunClient = true) :
      Moves clientNum s (.sendToServer idx) (s.goto idx (.test 0))
  | left {idx : Fin threadCnt} {i : ℕ} (hpc : s.pc idx = .test i)
      (hend : jobCnt clientNum threadCnt ≤ i ∨ clientNum ≤ slot idx i) :
      Moves clientNum s (.proceed idx) (s.goto idx .outside)
  | passed {idx : Fin threadCnt} {i : ℕ} {time : ℤ} (hpc : s.pc idx = .test i)
      (hslot : slot idx i < clientNum) (htime : s.sendTime[slot idx i]? = some time)
      (hearly : s.now - time < packetSendDuration) :
      Moves clientNum s (.proceed idx) (s.goto idx (.test (i + 1)))
  | chosen {idx : Fin threadCnt} {i : ℕ} {time : ℤ} (hpc : s.pc idx = .test i)
      (hslot : slot idx i < clientNum) (htime : s.sendTime[slot idx i]? = some time)
      (hdue : packetSendDuration ≤ s.now - time) :
      Moves clientNum s (.proceed idx) (s.goto idx (.stamp i))
  | missed {idx : Fin threadCnt} {i : ℕ} (hpc : s.pc idx = .test i)
      (hslot : slot idx i < clientNum) (htime : s.sendTime[slot idx i]? = none) :
      Moves clientNum s (.proceed idx) { s.goto idx .outside with outOfRange := true }
  | stamped {idx : Fin threadCnt} {i : ℕ} (hpc : s.pc idx = .stamp i) :
      Moves clientNum s (.proceed idx)
        { s.goto idx (.send i s.now) with sendTime := s.sendTime.set (slot idx i) s.now }
  | sent {idx : Fin threadCnt} {i : ℕ} {time : ℤ} (hpc : s.pc idx = .send i time) :
      Moves clientNum s (.proceed idx) (s.send idx i time)

/-- Every enabled step is one of the moves. -/
theorem step_moves {clientNum : ℕ} {s s' : State threadCnt} {a : Action threadCnt}
    (h : step clientNum s a = some s') : Moves clientNum s a s' := by
  cases a with
  | tick time =>
    cases h
    exact .ticked time
  | session x event =>
    obtain ⟨entry, hentry, rfl⟩ := Option.map_eq_some_iff.mp h
    exact .changed hentry
  | start =>
    simp only [step] at h
    split at h <;> cases h
    exact .started ‹_›
  | resetSendTime times =>
    simp only [step] at h
    split at h
    · split at h
      · rename_i hmain htimes
        cases h
        exact .reset hmain htimes.1 htimes.2
      · cases h
    · cases h
  | stop =>
    simp only [step] at h
    split at h
    · split at h <;> cases h
      exact .stopped ‹_›
    · cases h
  | disconnect =>
    simp only [step] at h
    split at h
    · split at h
      · split at h
        · split at h
          · cases h
            exact .mainPassed ‹_› (.inr rfl)
          · split at h
            · split at h <;> cases h
              · exact .mainPassed ‹_› (.inl rfl)
              · exact .mainChosen ‹_› ‹_› (not_lt.mp ‹_›)
            · cases h
              exact .mainMissed ‹_› (not_le.mp ‹_›) ‹_›
        · cases h
          exact .mainPassed ‹_› (.inr rfl)
      · cases h
        exact .mainDone ‹_›
    · cases h
      exact .mainStamped ‹_›
    · cases h
      exact .disconnected ‹_›
    · cases h
  | sendToServer idx =>
    simp only [step] at h
    split at h
    · split at h <;> cases h
      exact .entered ‹_› ‹_›
    · cases h
  | proceed idx =>
    simp only [step] at h
    split at h
    · split at h
      · split at h
        · cases h
          exact .left ‹_› (.inr ‹_›)
        · split at h
          · split at h <;> cases h
            · exact .passed ‹_› (not_le.mp ‹_›) ‹_› ‹_›
            · exact .chosen ‹_› (not_le.mp ‹_›) ‹_› (not_lt.mp ‹_›)
          · cases h
            exact .missed ‹_› (not_le.mp ‹_›) ‹_›
      · cases h
        exact .left ‹_› (.inl (not_lt.mp ‹_›))
    · cases h
      exact .stamped ‹_›
    · cases h
      exact .sent ‹_›
    · cases h

end System

section Slots

variable {threadCnt : ℕ}

/-- No two rounds of any threads are about the same client. -/
theorem slot_inj {idx idx' : Fin threadCnt} {i i' : ℕ} (h : slot idx i = slot idx' i') :
    idx = idx' ∧ i = i' := by
  have hpos : 0 < threadCnt := idx.pos
  have hmod : ∀ (k : Fin threadCnt) (j : ℕ), slot k j % threadCnt = k := fun k j => by
    rw [slot, sIdx, Nat.mul_add_mod_self_right, Nat.mod_eq_of_lt k.isLt]
  have hdiv : ∀ (k : Fin threadCnt) (j : ℕ), slot k j / threadCnt = j := fun k j => by
    rw [slot, sIdx, Nat.mul_comm, Nat.mul_add_div hpos, Nat.div_eq_of_lt k.isLt, Nat.add_zero]
  exact ⟨Fin.ext (by rw [← hmod idx i, h, hmod]), by rw [← hdiv idx i, h, hdiv]⟩

/-- Every client has a thread and a round. -/
theorem exists_slot (hpos : 0 < threadCnt) (x : ℕ) :
    ∃ (idx : Fin threadCnt) (i : ℕ), slot idx i = x :=
  ⟨⟨x % threadCnt, Nat.mod_lt x hpos⟩, x / threadCnt, Nat.div_add_mod' x threadCnt⟩

/-- The loop goes as far as that round. -/
theorem lt_jobCnt {clientNum i : ℕ} {idx : Fin threadCnt} (hslot : slot idx i < clientNum) :
    i < jobCnt clientNum threadCnt := by
  have hpos : (0 : ℚ) < threadCnt := by exact_mod_cast idx.pos
  rw [jobCnt, Nat.lt_ceil, lt_div_iff₀ hpos]
  exact_mod_cast (Nat.le_add_right _ _).trans_lt hslot

end Slots

section Invariant

variable {threadCnt clientNum : ℕ} {s s' : State threadCnt} {x : ℕ} {idx : Fin threadCnt}

/-- A call for a client is due at a time. -/
structure Due (s : State threadCnt) (x : ℕ) (time : ℤ) : Prop where
  /-- Those before it are old enough, and have been made. -/
  old : ∀ call ∈ s.calls x, call.stored + packetSendDuration ≤ time ∧ call.time ≤ time
  /-- There is time for one more since the start of the test. -/
  rate : packetSendDuration * ((s.calls x).length + 1) ≤ time - s.startTime

/-- The time stored for a client, up to now. -/
def Stored (s : State threadCnt) (x : ℕ) (P : ℤ → Prop) : Prop :=
  ∃ time, s.sendTime[x]? = some time ∧ P time

/-- The calls of a client. -/
structure Client (s : State threadCnt) (x : ℕ) : Prop where
  /-- A call is made after its time was stored. -/
  times : ∀ call ∈ s.calls x, call.stored ≤ call.time ∧ call.time ≤ s.now
  /-- The times stored are apart, and one call is made before the next time is stored. -/
  spaced : (s.calls x).Pairwise fun call later =>
    call.stored + packetSendDuration ≤ later.stored ∧ call.time ≤ later.stored
  /-- There was time for all of them since the start. -/
  rate : packetSendDuration * (s.calls x).length ≤ s.now - s.startTime
  /-- The time stored is not before any of theirs, and neither too early for them. -/
  stored : Stored s x fun time => (∀ call ∈ s.calls x, call.stored ≤ time) ∧
    packetSendDuration * (s.calls x).length ≤ time - s.startTime

/-- What a sender thread has found out about the client of its round. -/
def Busy (clientNum : ℕ) (s : State threadCnt) (idx : Fin threadCnt) : Pc → Prop
  | .stamp i => slot idx i < clientNum ∧ Due s (slot idx i) s.now ∧
      Stored s (slot idx i) fun stored => stored ≤ s.now
  | .send i time => slot idx i < clientNum ∧ Due s (slot idx i) time ∧ time ≤ s.now ∧
      Stored s (slot idx i) fun stored => time ≤ stored
  | _ => True

/-- `ResetSendTime` is done. -/
def Ready (s : State threadCnt) : Prop := s.main ≠ .created ∧ s.main ≠ .started

/-- The invariant. -/
structure Inv (clientNum : ℕ) (s : State threadCnt) : Prop where
  /-- The flag is not set before the test is started. -/
  flag : s.main = .created → s.bRunClient = false
  /-- Until `ResetSendTime` is done nobody sends. -/
  before : ¬ Ready s → (∀ idx, s.pc idx = .outside) ∧ ∀ x, s.calls x = []
  /-- From then on each client has a time. -/
  clients : Ready s → s.sendTime.length = clientNum ∧ ∀ x < clientNum, Client s x
  /-- The threads are right about their clients. -/
  busy : ∀ idx, Busy clientNum s idx (s.pc idx)
  /-- So is the main thread. -/
  main : ∀ idx i, s.main = .stamp idx i →
    Stored s (sIdx threadCnt i idx) fun stored => stored ≤ s.now
  /-- No access was outside `m_sendTime`. -/
  inRange : s.outOfRange = false

/-- Time passes, and the times stored do not become smaller. -/
structure Grows (s s' : State threadCnt) : Prop where
  startTime : s'.startTime = s.startTime
  now : s.now ≤ s'.now
  sendTime : ∀ x time, s.sendTime[x]? = some time →
    Stored s' x fun time' => time ≤ time' ∧ (time' = time ∨ time' ≤ s'.now)

/-- A time that stays due. -/
theorem Due.grows {time time' : ℤ} (due : Due s x time) (hstart : s'.startTime = s.startTime)
    (hcalls : s'.calls x = s.calls x) (hle : time ≤ time') : Due s' x time' := by
  refine ⟨fun call hcall => ?_, ?_⟩
  · rw [hcalls] at hcall
    obtain ⟨hold, hdone⟩ := due.old call hcall
    exact ⟨hold.trans hle, hdone.trans hle⟩
  · have hrate := due.rate
    rw [hcalls, hstart]
    linarith

/-- The calls for a client while none is made. -/
theorem Client.grows (client : Client s x) (grows : Grows s s') (hcalls : s'.calls x = s.calls x) :
    Client s' x := by
  obtain ⟨time, htime, hstoreds, hrate⟩ := client.stored
  obtain ⟨time', htime', hle, -⟩ := grows.sendTime x time htime
  have hnow := grows.now
  have hstart := grows.startTime
  have hold := client.rate
  refine ⟨fun call hcall => ?_, ?_, ?_, time', htime', fun call hcall => ?_, ?_⟩
  · rw [hcalls] at hcall
    obtain ⟨hfirst, hlast⟩ := client.times call hcall
    exact ⟨hfirst, hlast.trans hnow⟩
  · rw [hcalls]
    exact client.spaced
  · rw [hcalls, hstart]
    linarith
  · rw [hcalls] at hcall
    exact (hstoreds call hcall).trans hle
  · rw [hcalls, hstart]
    linarith

/-- What another thread does leaves a thread right. -/
theorem Busy.grows {pc : Pc} (busy : Busy clientNum s idx pc) (grows : Grows s s')
    (hcalls : ∀ i, s'.calls (slot idx i) = s.calls (slot idx i)) : Busy clientNum s' idx pc := by
  cases pc with
  | outside => trivial
  | test i => trivial
  | stamp i =>
    obtain ⟨hslot, due, time, htime, hle⟩ := busy
    obtain ⟨time', htime', -, hle'⟩ := grows.sendTime _ time htime
    have hnow := grows.now
    refine ⟨hslot, due.grows grows.startTime (hcalls i) hnow, time', htime', ?_⟩
    rcases hle' with rfl | hle'
    · exact hle.trans hnow
    · exact hle'
  | send i time =>
    obtain ⟨hslot, due, hle, stored, hstored, hle'⟩ := busy
    obtain ⟨stored', hstored', hmore, -⟩ := grows.sendTime _ stored hstored
    exact ⟨hslot, due.grows grows.startTime (hcalls i) le_rfl, hle.trans grows.now, stored',
      hstored', hle'.trans hmore⟩

/-- Where only the clock goes on. -/
theorem grows_of_eq (hstart : s'.startTime = s.startTime) (hnow : s.now ≤ s'.now)
    (htimes : s'.sendTime = s.sendTime) : Grows s s' where
  startTime := hstart
  now := hnow
  sendTime x time htime := ⟨time, by rw [htimes]; exact htime, le_rfl, .inl rfl⟩

/-- A time is stored for a client whose time was not after now. -/
theorem grows_set (hstart : s'.startTime = s.startTime) (hnow : s'.now = s.now)
    (htimes : s'.sendTime = s.sendTime.set x s.now)
    (hstored : Stored s x fun stored => stored ≤ s.now) : Grows s s' where
  startTime := hstart
  now := hnow.ge
  sendTime y time htime := by
    by_cases hy : x = y
    · subst hy
      obtain ⟨stored, hsome, hle⟩ := hstored
      obtain rfl : stored = time := by
        rw [hsome] at htime
        exact Option.some.inj htime
      obtain ⟨hlt, -⟩ := List.getElem?_eq_some_iff.mp hsome
      refine ⟨s.now, ?_, hle, .inr hnow.ge⟩
      rw [htimes, List.getElem?_set_self hlt]
    · refine ⟨time, ?_, le_rfl, .inl rfl⟩
      rw [htimes, List.getElem?_set_ne hy]
      exact htime

theorem inv_init (now : ℤ) : Inv clientNum (init now : State threadCnt) where
  flag _ := rfl
  before _ := ⟨fun _ => rfl, fun _ => rfl⟩
  clients h := (h.1 rfl).elim
  busy _ := trivial
  main _ _ h := by cases h
  inRange := rfl

/-- No sender thread begins a pass between the store of `m_bRunClient` and `ResetSendTime`. -/
def Waits (s : State threadCnt) : Action threadCnt → Prop
  | .sendToServer _ => s.main ≠ .started
  | _ => True

instance decidableWaits (s : State threadCnt) : ∀ a, Decidable (Waits s a)
  | .sendToServer _ => inferInstanceAs (Decidable (s.main ≠ .started))
  | .tick _ => isTrue trivial
  | .session _ _ => isTrue trivial
  | .start => isTrue trivial
  | .resetSendTime _ => isTrue trivial
  | .stop => isTrue trivial
  | .disconnect => isTrue trivial
  | .proceed _ => isTrue trivial

/-- A thread that is inside is there after `ResetSendTime`. -/
theorem Inv.ready (inv : Inv clientNum s) (hpc : s.pc idx ≠ .outside) : Ready s := by
  by_contra hnot
  exact hpc ((inv.before hnot).1 idx)

/-- A step of the main thread or of the clock. -/
theorem Inv.others (inv : Inv clientNum s) (grows : Grows s s') (hready : Ready s' ↔ Ready s)
    (hflag : s'.main = .created → s'.bRunClient = false)
    (hlength : s'.sendTime.length = s.sendTime.length) (hpc : s'.pc = s.pc)
    (hcalls : s'.calls = s.calls) (hrange : s'.outOfRange = s.outOfRange)
    (hmain : ∀ idx i, s'.main = .stamp idx i →
      Stored s' (sIdx threadCnt i idx) fun stored => stored ≤ s'.now) :
    Inv clientNum s' where
  flag := hflag
  before h := by
    rw [hpc, hcalls]
    exact inv.before (mt hready.mpr h)
  clients h := by
    obtain ⟨hold, hclients⟩ := inv.clients (hready.mp h)
    exact ⟨hlength.trans hold, fun x hx => (hclients x hx).grows grows (congrFun hcalls x)⟩
  busy idx := by
    rw [hpc]
    exact (inv.busy idx).grows grows fun i => congrFun hcalls _
  main := hmain
  inRange := hrange.trans inv.inRange

/-- A step of a sender thread that makes no call. -/
theorem Inv.goes (inv : Inv clientNum s) (ready : Ready s) (grows : Grows s s') {pc : Pc}
    (hflag : s'.bRunClient = s.bRunClient) (hmain : s'.main = s.main)
    (hlength : s'.sendTime.length = s.sendTime.length)
    (hpc : s'.pc = Function.update s.pc idx pc) (hcalls : s'.calls = s.calls)
    (hrange : s'.outOfRange = s.outOfRange) (hnew : Busy clientNum s' idx pc) :
    Inv clientNum s' where
  flag h := by
    rw [hflag]
    exact inv.flag (hmain ▸ h)
  before h := by
    rw [Ready, hmain] at h
    exact (h ready).elim
  clients _ := by
    obtain ⟨hold, hclients⟩ := inv.clients ready
    exact ⟨hlength.trans hold, fun x hx => (hclients x hx).grows grows (congrFun hcalls x)⟩
  busy u := by
    rw [hpc]
    by_cases hu : u = idx
    · subst hu
      rwa [Function.update_self]
    · rw [Function.update_of_ne hu]
      exact (inv.busy u).grows grows fun i => congrFun hcalls _
  main u i hi := by
    rw [hmain] at hi
    obtain ⟨time, htime, hle⟩ := inv.main u i hi
    obtain ⟨time', htime', -, hle'⟩ := grows.sendTime _ time htime
    refine ⟨time', htime', ?_⟩
    rcases hle' with rfl | hle'
    · exact hle.trans grows.now
    · exact hle'
  inRange := hrange.trans inv.inRange

/-- `ResetSendTime` gives each client a time. -/
theorem inv_reset (inv : Inv clientNum s) (hmain : s.main = .started) {times : List ℤ}
    (hlength : times.length = clientNum) (htimes : ∀ time ∈ times, s.now ≤ time) :
    Inv clientNum { s with sendTime := times, startTime := s.now, main := .running } := by
  have hnot : ¬ Ready s := fun h => h.2 hmain
  obtain ⟨hpc, hcalls⟩ := inv.before hnot
  refine ⟨fun h => (by cases h), fun h => (h ⟨by simp, by simp⟩).elim,
    fun _ => ⟨hlength, fun x hx => ?_⟩, fun idx => ?_, fun _ _ h => (by cases h), inv.inRange⟩
  · have hget : times[x]? = some times[x] := List.getElem?_eq_getElem (by omega)
    have hle := htimes _ (List.mem_of_getElem? hget)
    refine ⟨?_, ?_, ?_, times[x], hget, ?_, ?_⟩
    · simp [hcalls x]
    · simp [hcalls x]
    · simp [hcalls x]
    · simp [hcalls x]
    · simpa [hcalls x] using hle
  · show Busy clientNum _ idx (s.pc idx)
    rw [hpc idx]
    trivial

/-- The calls for a client with one more that was due. -/
theorem Client.sent {time : ℤ} {packet : Option Packet} (client : Client s x)
    (due : Due s x time) (hle : time ≤ s.now) (hstored : Stored s x fun stored => time ≤ stored)
    (hcalls : s'.calls x = s.calls x ++ [⟨time, s.now, packet⟩]) (hnow : s'.now = s.now)
    (hstart : s'.startTime = s.startTime) (htimes : s'.sendTime = s.sendTime) : Client s' x := by
  obtain ⟨stored, hsome, hmore⟩ := hstored
  obtain ⟨stored', hsome', hstoreds, -⟩ := client.stored
  obtain rfl : stored' = stored := Option.some.inj (hsome'.symm.trans hsome)
  have hrate := due.rate
  have hcount : ((s.calls x ++ [Call.mk time s.now packet]).length : ℤ) =
      (s.calls x).length + 1 := by
    simp
  refine ⟨fun call hcall => ?_, ?_, ?_, stored', by rw [htimes]; exact hsome,
    fun call hcall => ?_, ?_⟩
  · rw [hcalls] at hcall
    rw [hnow]
    rcases List.mem_append.mp hcall with hold | hnew
    · exact client.times call hold
    · rw [List.mem_singleton.mp hnew]
      exact ⟨hle, le_rfl⟩
  · rw [hcalls, List.pairwise_append]
    refine ⟨client.spaced, List.pairwise_singleton _ _, fun call hcall later hlater => ?_⟩
    rw [List.mem_singleton.mp hlater]
    exact due.old call hcall
  · rw [hcalls, hcount, hnow, hstart]
    linarith
  · rw [hcalls] at hcall
    rcases List.mem_append.mp hcall with hold | hnew
    · exact hstoreds call hold
    · rw [List.mem_singleton.mp hnew]
      exact hmore
  · rw [hcalls, hcount, hstart]
    linarith

/-- `SendPacket` is called for the client of the round. -/
theorem inv_sent (inv : Inv clientNum s) {i : ℕ} {time : ℤ} (hpc : s.pc idx = .send i time) :
    Inv clientNum (s.send idx i time) := by
  have ready : Ready s := inv.ready (by rw [hpc]; simp)
  obtain ⟨hlength, hclients⟩ := inv.clients ready
  have hbusy := inv.busy idx
  rw [hpc] at hbusy
  obtain ⟨hslot, due, hle, hstored⟩ := hbusy
  have grows : Grows s (s.send idx i time) := grows_of_eq rfl le_rfl rfl
  refine ⟨inv.flag, fun h => (h ready).elim, fun _ => ⟨hlength, fun x hx => ?_⟩, fun u => ?_,
    inv.main, inv.inRange⟩
  · by_cases hxs : x = slot idx i
    · subst hxs
      exact (hclients _ hx).sent due hle hstored (Function.update_self ..) rfl rfl rfl
    · exact (hclients x hx).grows grows (Function.update_of_ne hxs _ _)
  · show Busy clientNum _ u (Function.update s.pc idx (.test (i + 1)) u)
    by_cases hu : u = idx
    · subst hu
      rw [Function.update_self]
      trivial
    · rw [Function.update_of_ne hu]
      refine (inv.busy u).grows grows fun j => Function.update_of_ne (fun heq => ?_) _ _
      exact hu (slot_inj heq).1

/-- A client whose time is old enough is due. -/
theorem inv_chosen (inv : Inv clientNum s) {i : ℕ} {time : ℤ} (hpc : s.pc idx = .test i)
    (hslot : slot idx i < clientNum) (htime : s.sendTime[slot idx i]? = some time)
    (hdue : packetSendDuration ≤ s.now - time) : Inv clientNum (s.goto idx (.stamp i)) := by
  have ready : Ready s := inv.ready (by rw [hpc]; simp)
  have client := (inv.clients ready).2 _ hslot
  obtain ⟨stored, hstored, hstoreds, hrate⟩ := client.stored
  obtain rfl : stored = time := Option.some.inj (hstored.symm.trans htime)
  have hpos : (0 : ℤ) ≤ packetSendDuration := by decide
  have due : Due s (slot idx i) s.now := by
    refine ⟨fun call hcall => ⟨?_, (client.times call hcall).2⟩, ?_⟩
    · have hle := hstoreds call hcall
      linarith
    · rw [mul_add_one]
      linarith
  have grows : Grows s (s.goto idx (.stamp i)) := grows_of_eq rfl le_rfl rfl
  refine inv.goes ready grows rfl rfl rfl rfl rfl rfl
    ⟨hslot, due.grows rfl rfl le_rfl, stored, htime, ?_⟩
  show stored ≤ s.now
  linarith

/-- The main thread goes on to where it does not rely on a time that is stored. -/
theorem Inv.mainGoes (inv : Inv clientNum s) (hready : Ready s' ↔ Ready s)
    (hcreated : s'.main ≠ .created) (hstamp : ∀ idx i, s'.main ≠ .stamp idx i)
    (hstart : s'.startTime = s.startTime) (hnow : s'.now = s.now)
    (htimes : s'.sendTime = s.sendTime) (hpc : s'.pc = s.pc) (hcalls : s'.calls = s.calls)
    (hrange : s'.outOfRange = s.outOfRange) : Inv clientNum s' :=
  inv.others (grows_of_eq hstart hnow.ge htimes) hready (fun h => (hcreated h).elim)
    (congrArg List.length htimes) hpc hcalls hrange fun idx i h => (hstamp idx i h).elim

/-- A step keeps the invariant. -/
theorem inv_step (inv : Inv clientNum s) {a : Action threadCnt} (ok : Waits s a)
    (h : step clientNum s a = some s') : Inv clientNum s' := by
  cases step_moves h with
  | ticked time =>
    have grows : Grows s { s with now := s.now + time } :=
      grows_of_eq rfl (by simp) rfl
    refine inv.others grows Iff.rfl inv.flag rfl rfl rfl rfl fun u i hi => ?_
    obtain ⟨stored, hstored, hle⟩ := inv.main u i hi
    exact ⟨stored, hstored, hle.trans grows.now⟩
  | @changed x event entry hentry =>
    exact inv.others (grows_of_eq rfl le_rfl rfl) Iff.rfl inv.flag rfl rfl rfl rfl inv.main
  | started hmain =>
    exact inv.mainGoes (by simp [Ready, hmain]) (by rintro ⟨⟩) (by rintro _ _ ⟨⟩) rfl rfl rfl rfl
      rfl rfl
  | reset hmain hlength htimes => exact inv_reset inv hmain hlength htimes
  | stopped hmain =>
    exact inv.mainGoes (by simp [Ready, hmain]) (by rintro ⟨⟩) (by rintro _ _ ⟨⟩) rfl rfl rfl rfl
      rfl rfl
  | mainPassed hmain _ =>
    exact inv.mainGoes (by simp [Ready, hmain]) (by rintro ⟨⟩) (by rintro _ _ ⟨⟩) rfl rfl rfl rfl
      rfl rfl
  | mainDone hmain =>
    exact inv.mainGoes (by simp [Ready, hmain]) (by rintro ⟨⟩) (by rintro _ _ ⟨⟩) rfl rfl rfl rfl
      rfl rfl
  | @mainChosen u i time hmain htime hdue =>
    refine inv.others (grows_of_eq rfl le_rfl rfl) ?_ (fun h => (by cases h)) rfl rfl rfl rfl
      fun _ _ h => ?_
    · simp [Ready, hmain]
    · cases h
      refine ⟨time, htime, ?_⟩
      have hpos : (0 : ℤ) ≤ packetSendDuration := by decide
      show time ≤ s.now
      linarith
  | @mainMissed u i hmain hslot htime =>
    have ready : Ready s := ⟨by simp [hmain], by simp [hmain]⟩
    have hlength := (inv.clients ready).1
    have hge := List.getElem?_eq_none_iff.mp htime
    omega
  | @mainStamped u i hmain =>
    have grows : Grows s { s with
        sendTime := s.sendTime.set (sIdx threadCnt i u) s.now
        main := .disconnect u i } :=
      grows_set rfl rfl rfl (inv.main u i hmain)
    refine inv.others grows ?_ (fun h => (by cases h)) List.length_set rfl rfl rfl
      fun _ _ h => (by cases h)
    simp [Ready, hmain]
  | disconnected hmain =>
    exact inv.mainGoes (by simp [Ready, hmain]) (by rintro ⟨⟩) (by rintro _ _ ⟨⟩) rfl rfl rfl rfl
      rfl rfl
  | @entered idx hpc hrun =>
    have ready : Ready s := by
      refine ⟨fun hmain => ?_, ok⟩
      rw [inv.flag hmain] at hrun
      cases hrun
    exact inv.goes ready (grows_of_eq rfl le_rfl rfl) rfl rfl rfl rfl rfl rfl trivial
  | @left idx i hpc hend =>
    exact inv.goes (inv.ready (by rw [hpc]; simp)) (grows_of_eq rfl le_rfl rfl) rfl rfl
      rfl rfl rfl rfl trivial
  | @passed idx i time hpc hslot htime hearly =>
    exact inv.goes (inv.ready (by rw [hpc]; simp)) (grows_of_eq rfl le_rfl rfl) rfl rfl
      rfl rfl rfl rfl trivial
  | chosen hpc hslot htime hdue => exact inv_chosen inv hpc hslot htime hdue
  | @missed idx i hpc hslot htime =>
    have ready : Ready s := inv.ready (by rw [hpc]; simp)
    have hlength := (inv.clients ready).1
    have hge := List.getElem?_eq_none_iff.mp htime
    omega
  | @stamped idx i hpc =>
    have ready : Ready s := inv.ready (by rw [hpc]; simp)
    have hbusy := inv.busy idx
    rw [hpc] at hbusy
    obtain ⟨hslot, due, hstored⟩ := hbusy
    have hlength := (inv.clients ready).1
    refine inv.goes ready (grows_set rfl rfl rfl hstored) rfl rfl List.length_set rfl rfl rfl
      ⟨hslot, due.grows rfl rfl le_rfl, le_rfl, s.now, ?_, le_rfl⟩
    exact List.getElem?_set_self (by omega)
  | sent hpc => exact inv_sent inv hpc

/-- The invariant holds wherever the sender threads wait for `ResetSendTime`. -/
theorem inv_reachable {now : ℤ} (h : ReachableVia (step clientNum) Waits (init now) s) :
    Inv clientNum s :=
  h.invariant (inv_init now) fun _ _ _ inv ok hs => inv_step inv ok hs

end Invariant

section Passes

variable {threadCnt clientNum : ℕ} {s s' : State threadCnt} {idx : Fin threadCnt} {i n x : ℕ}
  {p : Option Packet → Bool}

/-- The time stored for a client is old enough. -/
def Old (s : State threadCnt) (x : ℕ) : Prop :=
  Stored s x fun time => time + packetSendDuration ≤ s.now

/-- A thread comes to the round `i` of its loop, whose client is due, or is in it. -/
def Ahead (s : State threadCnt) (idx : Fin threadCnt) (i : ℕ) : Pc → Prop
  | .outside => False
  | .test j => j ≤ i ∧ Old s (slot idx i)
  | .stamp j => j = i ∨ j < i ∧ Old s (slot idx i)
  | .send j _ => j = i ∨ j < i ∧ Old s (slot idx i)

/-- What is old stays old while nothing is stored for the client. -/
theorem Old.later (old : Old s x) (hnow : s.now ≤ s'.now)
    (htimes : s'.sendTime[x]? = s.sendTime[x]?) : Old s' x := by
  obtain ⟨time, htime, hle⟩ := old
  exact ⟨time, htimes.trans htime, hle.trans hnow⟩

/-- So does a thread stay ahead. -/
theorem Ahead.later {pc : Pc} (ahead : Ahead s idx i pc) (hnow : s.now ≤ s'.now)
    (htimes : s'.sendTime[slot idx i]? = s.sendTime[slot idx i]?) : Ahead s' idx i pc := by
  cases pc with
  | outside => exact ahead
  | test j => exact ⟨ahead.1, ahead.2.later hnow htimes⟩
  | stamp j => exact ahead.imp_right fun h => ⟨h.1, h.2.later hnow htimes⟩
  | send j time => exact ahead.imp_right fun h => ⟨h.1, h.2.later hnow htimes⟩

/-- The calls for a client that send something of a kind. -/
def State.count (s : State threadCnt) (p : Option Packet → Bool) (x : ℕ) : ℕ :=
  (s.calls x).countP fun call => p call.packet

/-- A call for a client would send something of the kind. -/
def Sends (p : Option Packet → Bool) (s : State threadCnt) (x : ℕ) : Prop :=
  p (sendPacket (s.sessions x)).1 = true

/-- A call for a client counts if it sends something of the kind. -/
theorem count_send (time : ℤ) : (s.send idx i time).count p (slot idx i) =
    s.count p (slot idx i) +
      if p (sendPacket (s.sessions (slot idx i))).1 = true then 1 else 0 := by
  show (Function.update s.calls (slot idx i) _ (slot idx i)).countP _ = _
  rw [Function.update_self, List.countP_append, List.countP_singleton]
  rfl

/-- The client of a round has been sent a packet of the kind, or will be in this pass. -/
def Serving (p : Option Packet → Bool) (s : State threadCnt) (idx : Fin threadCnt) (i n : ℕ) :
    Prop :=
  n < s.count p (slot idx i) ∨ n ≤ s.count p (slot idx i) ∧ Ahead s idx i (s.pc idx)

/-- A step that concerns another client leaves a thread ahead. -/
theorem Serving.later (serving : Serving p s idx i n)
    (hcalls : s'.calls (slot idx i) = s.calls (slot idx i))
    (hpc : Ahead s idx i (s.pc idx) → Ahead s' idx i (s'.pc idx)) : Serving p s' idx i n := by
  rw [Serving, State.count, hcalls]
  exact serving.imp_right fun h => ⟨h.1, hpc h.2⟩

/-- A step of the thread itself, inside the loop. -/
theorem serving_proceed (inv : Inv clientNum s) (hslot : slot idx i < clientNum)
    (hsends : Sends p s (slot idx i)) (serving : Serving p s idx i n)
    (h : step clientNum s (.proceed idx) = some s') : Serving p s' idx i n := by
  have hself : ∀ pc, (s.goto idx pc).pc idx = pc := fun pc => Function.update_self ..
  cases step_moves h with
  | @left _ j hpc hend =>
    refine serving.later rfl fun ahead => ?_
    rw [hpc] at ahead
    have hle : slot idx j ≤ slot idx i :=
      Nat.add_le_add_right (Nat.mul_le_mul_right threadCnt ahead.1) _
    have hle' := ahead.1
    have hjob := lt_jobCnt hslot
    omega
  | @passed _ j time hpc _ htime hearly =>
    refine serving.later rfl fun ahead => ?_
    rw [hpc] at ahead
    obtain ⟨hle, old⟩ := ahead
    rw [hself]
    refine ⟨Nat.succ_le_of_lt (lt_of_le_of_ne hle ?_), old.later le_rfl rfl⟩
    rintro rfl
    obtain ⟨stored, hstored, hold⟩ := old
    obtain rfl : stored = time := Option.some.inj (hstored.symm.trans htime)
    linarith
  | @chosen _ j time hpc _ htime hdue =>
    refine serving.later rfl fun ahead => ?_
    rw [hpc] at ahead
    rw [hself]
    exact (eq_or_lt_of_le ahead.1).imp_right fun hlt => ⟨hlt, ahead.2.later le_rfl rfl⟩
  | @missed _ j hpc hlt htime =>
    have hlength := (inv.clients (inv.ready (by rw [hpc]; simp))).1
    have hge := List.getElem?_eq_none_iff.mp htime
    omega
  | @stamped _ j hpc =>
    by_cases hj : j = i
    · subst hj
      refine serving.imp_right fun hboth => ⟨hboth.1, ?_⟩
      show Ahead _ idx j (Function.update s.pc idx (.send j s.now) idx)
      rw [Function.update_self]
      exact .inl rfl
    · have hne : slot idx j ≠ slot idx i := fun heq => hj (slot_inj heq).2
      have htimes : (s.sendTime.set (slot idx j) s.now)[slot idx i]? = s.sendTime[slot idx i]? :=
        List.getElem?_set_ne hne
      refine serving.later rfl fun ahead => ?_
      rw [hpc] at ahead
      show Ahead _ idx i (Function.update s.pc idx (.send j s.now) idx)
      rw [Function.update_self]
      exact ahead.imp_right fun hlt => ⟨hlt.1, hlt.2.later le_rfl htimes⟩
  | @sent _ j time hpc =>
    by_cases hj : j = i
    · subst hj
      refine .inl ?_
      have hpacket : p (sendPacket (s.sessions (slot idx j))).1 = true := hsends
      rw [count_send, if_pos hpacket]
      rcases serving with hlt | ⟨hle, -⟩ <;> omega
    · have hne : slot idx i ≠ slot idx j := fun heq => hj (slot_inj heq).2.symm
      refine serving.later (Function.update_of_ne hne _ _) fun ahead => ?_
      rw [hpc] at ahead
      show Ahead _ idx i (Function.update s.pc idx (.test (j + 1)) idx)
      rw [Function.update_self]
      have hlt := ahead.resolve_left hj
      exact ⟨hlt.1, hlt.2.later le_rfl rfl⟩

/-- A step of another thread, or of the main thread before it disconnects clients, leaves
the thread and its client as they are. -/
theorem elsewhere (hready : Ready s) {a : Action threadCnt} (hproceed : a ≠ .proceed idx)
    (henter : a ≠ .sendToServer idx) (hmain : a ≠ .disconnect)
    (h : step clientNum s a = some s') : s.now ≤ s'.now ∧
      s'.sendTime[slot idx i]? = s.sendTime[slot idx i]? ∧
      s'.calls (slot idx i) = s.calls (slot idx i) ∧ s'.pc idx = s.pc idx := by
  have hne : ∀ {u : Fin threadCnt}, .proceed u ≠ Action.proceed idx → idx ≠ u := by
    rintro u hu rfl
    exact hu rfl
  cases step_moves h with
  | ticked time => exact ⟨by simp, rfl, rfl, rfl⟩
  | changed _ => exact ⟨le_rfl, rfl, rfl, rfl⟩
  | started hcreated => exact (hready.1 hcreated).elim
  | reset hstarted _ _ => exact (hready.2 hstarted).elim
  | stopped _ => exact ⟨le_rfl, rfl, rfl, rfl⟩
  | mainPassed _ _ | mainDone _ | mainChosen _ _ _ | mainMissed _ _ _ | mainStamped _
  | disconnected _ => exact (hmain rfl).elim
  | @entered u _ _ =>
    have hu : idx ≠ u := by
      rintro rfl
      exact henter rfl
    exact ⟨le_rfl, rfl, rfl, Function.update_of_ne hu _ _⟩
  | left _ _ => exact ⟨le_rfl, rfl, rfl, Function.update_of_ne (hne hproceed) _ _⟩
  | passed _ _ _ _ => exact ⟨le_rfl, rfl, rfl, Function.update_of_ne (hne hproceed) _ _⟩
  | chosen _ _ _ _ => exact ⟨le_rfl, rfl, rfl, Function.update_of_ne (hne hproceed) _ _⟩
  | missed _ _ _ => exact ⟨le_rfl, rfl, rfl, Function.update_of_ne (hne hproceed) _ _⟩
  | stamped _ =>
    exact ⟨le_rfl, List.getElem?_set_ne fun heq => hne hproceed (slot_inj heq).1.symm, rfl,
      Function.update_of_ne (hne hproceed) _ _⟩
  | sent _ =>
    exact ⟨le_rfl, rfl, Function.update_of_ne (fun heq => hne hproceed (slot_inj heq).1) _ _,
      Function.update_of_ne (hne hproceed) _ _⟩

/-- Until the main thread disconnects clients a thread that is inside stays on its way. -/
theorem serving_step (inv : Inv clientNum s) (hready : Ready s) (hslot : slot idx i < clientNum)
    (hsends : Sends p s (slot idx i)) (serving : Serving p s idx i n) {a : Action threadCnt}
    (hmain : a ≠ .disconnect) (h : step clientNum s a = some s') : Serving p s' idx i n := by
  by_cases hproceed : a = .proceed idx
  · subst hproceed
    exact serving_proceed inv hslot hsends serving h
  by_cases henter : a = .sendToServer idx
  · subst henter
    cases step_moves h with
    | entered hpc hrun =>
      refine serving.later rfl fun ahead => ?_
      rw [hpc] at ahead
      exact ahead.elim
  · obtain ⟨hnow, htimes, hcalls, hpc⟩ := elsewhere (i := i) hready hproceed henter hmain h
    refine serving.later hcalls fun ahead => ?_
    rw [hpc]
    exact ahead.later hnow htimes

/-- The test is not taken back. -/
theorem ready_step (hready : Ready s) {a : Action threadCnt}
    (h : step clientNum s a = some s') : Ready s' := by
  cases step_moves h with
  | started hcreated => exact (hready.1 hcreated).elim
  | reset hstarted _ _ => exact (hready.2 hstarted).elim
  | stopped _ | mainPassed _ _ | mainDone _ | mainChosen _ _ _ | mainMissed _ _ _
  | mainStamped _ | disconnected _ => exact ⟨by simp, by simp⟩
  | _ => exact hready

/-- Throughout a run, calls for a client would send something of the kind. -/
def SendsTo (p : Option Packet → Bool) (x : ℕ) (s : State threadCnt) (_ : Action threadCnt) :
    Prop := Sends p s x

instance decidableSendsTo (p : Option Packet → Bool) (x : ℕ) (s : State threadCnt)
    (a : Action threadCnt) : Decidable (SendsTo p x s a) :=
  inferInstanceAs (Decidable (p (sendPacket (s.sessions x)).1 = true))

/-- A thread that is on its way is so throughout a run. -/
theorem serving_run (inv : Inv clientNum s) (hready : Ready s) (hslot : slot idx i < clientNum)
    (serving : Serving p s idx i n)
    {as : List (Action threadCnt)} (hwaits : StepsMeet (step clientNum) Waits s as)
    (hsends : StepsMeet (step clientNum) (SendsTo p (slot idx i)) s as)
    (hmain : ∀ a ∈ as, a ≠ .disconnect) (hr : run (step clientNum) s as = some s') :
    Serving p s' idx i n := by
  have hkept : ∀ (s : State threadCnt) (a : Action threadCnt) (s' : State threadCnt),
      Inv clientNum s ∧ Ready s ∧ Serving p s idx i n →
      (Waits s a ∧ SendsTo p (slot idx i) s a) ∧ a ≠ .disconnect →
      step clientNum s a = some s' → Inv clientNum s' ∧ Ready s' ∧ Serving p s' idx i n := by
    rintro s a s' ⟨inv, hready, serving⟩ ⟨⟨ok, hsends⟩, hmain⟩ h
    exact ⟨inv_step inv ok h, ready_step hready h,
      serving_step inv hready hslot hsends serving hmain h⟩
  have hend := run_preserves hkept ⟨inv, hready, serving⟩
    ((hwaits.and hsends).and (stepsMeet_of_forall fun a ha _ => hmain a ha)) hr
  exact hend.2.2

/-- A pass that begins when the client is due makes a call for it. -/
theorem count_of_pass (inv : Inv clientNum s) (hslot : slot idx i < clientNum)
    (hold : Old s (slot idx i)) {as : List (Action threadCnt)}
    (hwaits : StepsMeet (step clientNum) Waits s (.sendToServer idx :: as))
    (hsends : StepsMeet (step clientNum) (SendsTo p (slot idx i)) s (.sendToServer idx :: as))
    (hmain : ∀ a ∈ as, a ≠ .disconnect)
    (hr : run (step clientNum) s (.sendToServer idx :: as) = some s')
    (hback : s'.pc idx = .outside) : s.count p (slot idx i) < s'.count p (slot idx i) := by
  obtain ⟨m, hm, hrest⟩ := run_cons_eq_some.mp hr
  have hboth : Ready m ∧ Serving p m idx i (s.count p (slot idx i)) := by
    cases step_moves hm with
    | entered hpc hrun =>
      have hready : Ready s := by
        refine ⟨fun hcreated => ?_, hwaits.1⟩
        rw [inv.flag hcreated] at hrun
        cases hrun
      refine ⟨hready, .inr ⟨le_rfl, ?_⟩⟩
      show Ahead _ idx i (Function.update s.pc idx (.test 0) idx)
      rw [Function.update_self]
      exact ⟨Nat.zero_le i, hold.later le_rfl rfl⟩
  have serving := serving_run (inv_step inv hwaits.1 hm) hboth.1 hslot hboth.2
    (hwaits.2 m hm) (hsends.2 m hm) hmain hrest
  refine serving.resolve_right fun hahead => ?_
  rw [hback] at hahead
  exact hahead.2

end Passes

section Logins

variable {threadCnt clientNum : ℕ} {s s' : State threadCnt} {x : ℕ}

/-- A call that sends a login. -/
def isLogin (packet : Option Packet) : Bool := packet = some .login

/-- A call that sends a position. -/
def isMove (packet : Option Packet) : Bool := packet = some .move

/-- The logins sent to the server fit what `m_sessions` has: none before `m_bStartLogin` is
set, and not more than one. -/
def LoginsFit (logins : ℕ) : Entry → Prop
  | .absent => logins = 0
  | .alive session => logins ≤ 1 ∧ (session.bStartLogin = false → logins = 0)
  | .expired => logins ≤ 1

/-- There is one at most. -/
theorem LoginsFit.le_one {logins : ℕ} {entry : Entry} (h : LoginsFit logins entry) :
    logins ≤ 1 := by
  cases entry with
  | absent => exact h.le.trans (Nat.zero_le 1)
  | alive session => exact h.1
  | expired => exact h

/-- What happens to a client leaves it so. -/
theorem LoginsFit.apply {logins : ℕ} {entry entry' : Entry} {event : Event}
    (h : LoginsFit logins entry) (happly : event.apply entry = some entry') :
    LoginsFit logins entry' := by
  unfold Event.apply at happly
  split at happly <;> cases happly
  · obtain rfl : logins = 0 := h
    exact ⟨Nat.zero_le 1, fun _ => rfl⟩
  · exact h
  · exact h
  · exact h.1

/-- So does the main thread. -/
theorem LoginsFit.disconnect {logins : ℕ} {entry : Entry} (h : LoginsFit logins entry) :
    LoginsFit logins (disconnect entry) := by
  cases entry <;> exact h

/-- A login is sent at the first call of `SendLogin` only. -/
theorem LoginsFit.send {logins : ℕ} {entry : Entry} (h : LoginsFit logins entry) :
    LoginsFit (logins + if isLogin (sendPacket entry).1 = true then 1 else 0)
      (sendPacket entry).2 := by
  cases entry with
  | absent => exact h
  | expired => exact h
  | alive session =>
    obtain ⟨hle, hzero⟩ := h
    by_cases hlogin : session.bLogin = true
    · have hmove : isLogin (session.send .move) = false := by
        rw [Session.send]
        split <;> rfl
      simp only [sendPacket, if_pos hlogin, hmove]
      exact ⟨hle, hzero⟩
    · by_cases hstart : session.bConnect = true ∧ session.bStartLogin = false
      · simp only [sendPacket, if_neg hlogin, if_pos hstart, hzero hstart.2]
        refine ⟨?_, fun hnot => (by cases hnot)⟩
        split <;> simp
      · simp only [sendPacket, if_neg hlogin, if_neg hstart]
        exact ⟨hle, hzero⟩

/-- The logins of all clients do. -/
def AllLoginsFit (s : State threadCnt) : Prop :=
  ∀ x, LoginsFit (s.count isLogin x) (s.sessions x)

/-- A step leaves them so. -/
theorem loginsFit_step (h : AllLoginsFit s) {a : Action threadCnt}
    (hs : step clientNum s a = some s') : AllLoginsFit s' := by
  intro x
  have hset : ∀ y entry, (LoginsFit (s.count isLogin y) entry) →
      LoginsFit (s.count isLogin x) (Function.update s.sessions y entry x) := by
    intro y entry hentry
    by_cases hx : x = y
    · rwa [hx, Function.update_self]
    · rw [Function.update_of_ne hx]
      exact h x
  cases step_moves hs with
  | changed hentry => exact hset _ _ ((h _).apply hentry)
  | disconnected _ => exact hset _ _ (h _).disconnect
  | @sent idx i time hpc =>
    by_cases hx : x = slot idx i
    · rw [hx, count_send]
      show LoginsFit _ (Function.update s.sessions (slot idx i) _ (slot idx i))
      rw [Function.update_self]
      exact (h _).send
    · have hcount : (s.send idx i time).count isLogin x = s.count isLogin x := by
        show (Function.update s.calls (slot idx i) _ x).countP _ = _
        rw [Function.update_of_ne hx, State.count]
      rw [hcount]
      show LoginsFit _ (Function.update s.sessions (slot idx i) _ x)
      rw [Function.update_of_ne hx]
      exact h x
  | _ => exact h x

/-- They are so throughout a run. -/
theorem loginsFit_reachable {now : ℤ} (h : ReachableVia (step clientNum) Waits (init now) s) :
    AllLoginsFit s := by
  have hinit : AllLoginsFit (init now : State threadCnt) := fun _ => rfl
  exact h.invariant hinit fun _ _ _ hfit _ hs => loginsFit_step hfit hs

end Logins

/-- The calls of `SendPacket` are spread over the time. -/
structure Paced {threadCnt : ℕ} (clientNum : ℕ) (s : State threadCnt) : Prop where
  /-- No access is outside `m_sendTime`. -/
  inRange : s.outOfRange = false
  /-- A call is made after its time was stored. -/
  times : ∀ x < clientNum, ∀ call ∈ s.calls x, call.stored ≤ call.time
  /-- The times stored for two calls for a client are a second apart, and the earlier call is
  made before the time of the later one is stored. -/
  spaced : ∀ x < clientNum, (s.calls x).Pairwise fun call later =>
    call.stored + packetSendDuration ≤ later.stored ∧ call.time ≤ later.stored
  /-- No more calls are made for a client than seconds have passed since `ResetSendTime`. -/
  rate : ∀ x < clientNum, s.calls x ≠ [] →
    packetSendDuration * (s.calls x).length ≤ s.now - s.startTime
  /-- A client sends one login at most. -/
  logins : ∀ x, s.count isLogin x ≤ 1

/-- However at least one sender thread, the main thread, the clients' other threads and the
clock are interleaved, as long as no sender thread begins a pass between the store of
`m_bRunClient` and `ResetSendTime`: no access is outside `m_sendTime`, neither by the main
thread; the times stored before two calls of `SendPacket` for a client are a second apart
(the calls themselves may be made later than that, and so be nearer to each other), and a
client sends one login at most. Each client belongs to a thread. Every pass of that thread
that begins when the client is due and ends before clients are disconnected calls
`SendPacket` for it, and a position is sent if the client is connected and logged in. -/
theorem stressTest_paced {threadCnt clientNum : ℕ} (hthreads : 0 < threadCnt) {now : ℤ}
    {s : State threadCnt} (h : ReachableVia (step clientNum) Waits (init now) s) :
    Paced clientNum s ∧ (∀ x < clientNum, ∃ (idx : Fin threadCnt) (i : ℕ), slot idx i = x) ∧
    ∀ (idx : Fin threadCnt) (i : ℕ) (as : List (Action threadCnt)) (s' : State threadCnt),
      slot idx i < clientNum → Old s (slot idx i) →
      StepsMeet (step clientNum) Waits s (.sendToServer idx :: as) →
      run (step clientNum) s (.sendToServer idx :: as) = some s' →
      (∀ a ∈ as, a ≠ .disconnect) → s'.pc idx = .outside →
      (s.calls (slot idx i)).length < (s'.calls (slot idx i)).length ∧
      (StepsMeet (step clientNum) (SendsTo isMove (slot idx i)) s (.sendToServer idx :: as) →
        s.count isMove (slot idx i) < s'.count isMove (slot idx i)) := by
  have inv := inv_reachable h
  refine ⟨?_, fun x _ => exists_slot hthreads x,
    fun idx i as s' hslot hold hwaits hr hmain hback => ⟨?_, fun hsends => ?_⟩⟩
  · have hclient : ∀ x < clientNum, s.calls x = [] ∨ Client s x := by
      intro x hx
      by_cases hready : Ready s
      · exact .inr ((inv.clients hready).2 x hx)
      · exact .inl ((inv.before hready).2 x)
    refine ⟨inv.inRange, fun x hx call hcall => ?_, fun x hx => ?_, fun x hx hne => ?_,
      fun x => (loginsFit_reachable h x).le_one⟩
    · rcases hclient x hx with hnil | client
      · rw [hnil] at hcall
        exact (List.not_mem_nil hcall).elim
      · exact (client.times call hcall).1
    · rcases hclient x hx with hnil | client
      · rw [hnil]
        exact .nil
      · exact client.spaced
    · exact ((hclient x hx).resolve_left hne).rate
  · have hcount : ∀ s : State threadCnt,
        s.count (fun _ => true) (slot idx i) = (s.calls (slot idx i)).length :=
      fun s => congrFun List.countP_true _
    rw [← hcount s, ← hcount s']
    exact count_of_pass inv hslot hold hwaits (stepsMeet_of_forall fun _ _ _ => rfl) hmain hr
      hback
  · exact count_of_pass inv hslot hold hwaits hsends hmain hr hback

/-- A first thread. -/
def first : Fin 2 := ⟨0, by decide⟩

/-- A second thread. -/
def second : Fin 2 := ⟨1, by decide⟩

/-- Two threads send logins of two clients out of three, and one of these is answered. -/
def threeClients : List (Action 2) :=
  [.session 0 .onConnected, .session 2 .onConnected, .start, .resetSendTime [0, 333, 666],
    .tick 1400, .sendToServer first, .sendToServer second, .proceed first, .proceed second,
    .proceed first, .proceed second, .proceed first, .proceed second, .proceed first,
    .proceed first, .tick 600, .sendToServer first, .proceed first, .proceed first,
    .proceed first, .proceed first, .proceed first, .session 2 .loginResult, .tick 1000]

/-- A pass of the first thread. -/
def secondPass : List (Action 2) :=
  [.proceed first, .proceed first, .proceed first, .proceed first, .proceed first,
    .proceed first, .proceed first]

/-- It makes a call for both of its clients and sends a position of the one that is logged in;
nothing is sent for the other one, whose login is under way. -/
theorem stressTest_paced_three : ∃ s s' : State 2,
    run (step 3) (init 0) threeClients = some s ∧ s.calls 0 = [⟨1400, 1400, some .login⟩] ∧
    s.calls 2 = [⟨2000, 2000, some .login⟩] ∧ Paced 3 s ∧
    run (step 3) s (.sendToServer first :: secondPass) = some s' ∧
    s'.calls 0 = [⟨1400, 1400, some .login⟩, ⟨3000, 3000, none⟩] ∧
    (s.calls 2).length < (s'.calls 2).length ∧ s.count isMove 2 < s'.count isMove 2 := by
  have h : ((run (step 3) (init 0) threeClients).any fun s =>
      s.calls 0 = [⟨1400, 1400, some .login⟩] ∧ s.calls 2 = [⟨2000, 2000, some .login⟩] ∧
      s.sendTime[2]? = some 2000 ∧ s.now = 3000 ∧
      StepsMeet (step 3) Waits s (.sendToServer first :: secondPass) ∧
      StepsMeet (step 3) (SendsTo isMove 2) s (.sendToServer first :: secondPass) ∧
      (run (step 3) s (.sendToServer first :: secondPass)).any fun s' =>
        s'.calls 0 = [⟨1400, 1400, some .login⟩, ⟨3000, 3000, none⟩] ∧
          s'.pc first = .outside) = true := by
    decide +kernel
  obtain ⟨s, hr, hview⟩ := (Option.any_eq_true _ _).mp h
  obtain ⟨hcalls, hlogin, htime, hnow, hwaits, hsends, hpass⟩ := of_decide_eq_true hview
  obtain ⟨s', hr', hview'⟩ := (Option.any_eq_true _ _).mp hpass
  obtain ⟨hcalls', hback⟩ := of_decide_eq_true hview'
  have hold : Old s 2 := ⟨2000, htime, by rw [hnow]; decide⟩
  obtain ⟨paced, -, hserves⟩ := @stressTest_paced 2 3 (by decide) 0 s
    ⟨threeClients, hr, by decide +kernel⟩
  have hserved := hserves first 1 secondPass s' (by decide) hold hwaits hr'
    (by simp [secondPass]) hback
  exact ⟨s, s', hr, hcalls, hlogin, paced, hr', hcalls', hserved.1, hserved.2 hsends⟩

end RioIocpServer.StressTest
