import Mathlib.Order.Basic
import Mathlib.Data.List.Sort
import RioIocpServer.RioSend

/-!
# The core thread and its set of sessions

`DeferredSend` holds `m_sessionLock` while it calls `SendDeferred` of one session after
the other. An error of `RIOSend` makes `SendDeferred` call `Disconnect`, and `Disconnect`
calls `ReleaseSession` of the core, which takes the lock and erases the session from the
set. Between two calls of `DeferredSend` the thread dispatches completions. The other
threads hold the lock within one step only; all steps of sending are those of the send
path.
-/

namespace RioIocpServer.RioCore

open TransitionSystem RioSend

/-- What the core thread does next. -/
inductive Pc (S : Type*) where
  /-- It dispatches completions, or calls `DeferredSend`. -/
  | outside
  /-- It compares `sIter` with the end of the set. -/
  | iterate
  /-- It is inside `SendDeferred` of a session. -/
  | send (x : S)
  /-- It is at the `lock_guard` of `ReleaseSession`. -/
  | lock (x : S)
  /-- It is at the `erase` of `ReleaseSession`. -/
  | erase (x : S)
  deriving DecidableEq

/-- A core with its sessions. -/
structure Core (S T : Type*) where
  /-- `m_sessions`, in the order of the set. -/
  sessions : List S
  /-- `m_sessionCnt`. -/
  sessionCnt : ℤ
  /-- The send side of the sessions. -/
  session : S → Session T
  /-- Progress of the core thread. -/
  pc : RioCore.Pc S
  /-- The core thread holds `m_sessionLock`. -/
  sessionLock : Bool
  /-- `sIter` while it is live: the sessions from it to the end. -/
  iterator : Option (List S)

/-- The steps of the core thread and of the other threads. -/
inductive Action (S T : Type*) where
  /-- Another thread calls `AddSession`. -/
  | addSession (x : S)
  /-- Another thread calls `ReleaseSession`. -/
  | releaseSession (x : S)
  /-- Another thread does a step of the send path. -/
  | other (x : S) (a : RioSend.Action T)
  /-- `DeferredSend` takes the lock and sets `sIter` to the begin of the set. -/
  | deferredSend
  /-- `SendDeferred` of the session at `sIter` is called, or `DeferredSend` returns. -/
  | iterate (currentTime : ℤ)
  /-- A step inside `SendDeferred`, with the answer of `SetLinger`. -/
  | inside (a : RioSend.Action T) (linger : Bool)
  /-- `SendDeferred` has returned: `sIter++`. -/
  | advance
  /-- A completion is dispatched: `ProcessSend`, or a `Disconnect` in `ProcessRecv`. -/
  | dispatch (x : S) (a : RioSend.Action T) (linger : Bool)
  /-- The `lock_guard` of `ReleaseSession`. -/
  | lock
  /-- The rest of `ReleaseSession`. -/
  | erase

/-- The steps of the send path that other threads do. -/
def OfOthers {T : Type*} : RioSend.Action T → Bool
  | .initSession => true
  | .sendCheck _ _ => true
  | .sendPush _ => true
  | .disconnect => true
  | _ => false

/-- The steps inside `SendDeferred`. -/
def OfSendDeferred {T : Type*} : RioSend.Action T → Bool
  | .dequeue => true
  | .testLimit => true
  | .post _ => true
  | .testMax => true
  | .stamp _ => true
  | .commit _ => true
  | _ => false

/-- The steps of the dispatched completions. -/
def OfDispatch {T : Type*} : RioSend.Action T → Bool
  | .complete => true
  | .disconnect => true
  | _ => false

section System

variable {S T : Type*} [LinearOrder S] [DecidableEq T]

/-- A core without sessions. -/
def init (memory : ℤ → UInt8) : Core S T where
  sessions := []
  sessionCnt := 0
  session _ := RioSend.init memory
  pc := .outside
  sessionLock := false
  iterator := none

namespace Core

omit [DecidableEq T]

/-- `AddSession`, inside the lock. -/
def addSession (c : Core S T) (x : S) : Core S T :=
  { c with
    sessions := if x ∈ c.sessions then c.sessions else c.sessions.orderedInsert (· ≤ ·) x
    sessionCnt := c.sessionCnt + 1 }

/-- `ReleaseSession`, inside the lock. -/
def releaseSession (c : Core S T) (x : S) : Core S T :=
  { c with sessions := c.sessions.erase x, sessionCnt := c.sessionCnt - 1 }

/-- The state of one session changes. -/
def setSession (c : Core S T) (x : S) (session : Session T) : Core S T :=
  { c with session := Function.update c.session x session }

/-- Where the core thread goes on behind a call of `Disconnect`. -/
def back (c : Core S T) (x : S) : RioCore.Pc S :=
  match c.iterator with
  | none => .outside
  | some _ => .send x

end Core

/-- The core thread does a step of the send path. Where the step has called `Disconnect`
and found `m_bConnected` true, and `SetLinger` succeeds, the thread comes to
`ReleaseSession`; `OnDisconnected`, which is called before, takes no lock of the core. -/
def act (c : Core S T) (x : S) (a : RioSend.Action T) (linger : Bool) : Option (Core S T) :=
  (RioSend.step (c.session x) a).map fun session =>
    { c.setSession x session with
      pc := if (c.session x).connected = true ∧ session.connected = false ∧ linger = true then
          .lock x
        else c.back x }

/-- One step. -/
def step (c : Core S T) : RioCore.Action S T → Option (Core S T)
  | .addSession x => if c.sessionLock = false then some (c.addSession x) else none
  | .releaseSession x => if c.sessionLock = false then some (c.releaseSession x) else none
  | .other x a =>
    if OfOthers a = true then (RioSend.step (c.session x) a).map (c.setSession x) else none
  | .deferredSend =>
    if c.pc = .outside ∧ c.sessionLock = false then
      some { c with pc := .iterate, sessionLock := true, iterator := some c.sessions }
    else none
  | .iterate currentTime =>
    match c.pc, c.iterator with
    | .iterate, some [] => some { c with pc := .outside, sessionLock := false, iterator := none }
    | .iterate, some (x :: _) =>
      (RioSend.step (c.session x) (.sendDeferred currentTime)).map fun session =>
        { c.setSession x session with pc := .send x }
    | _, _ => none
  | .inside a linger =>
    match c.pc with
    | .send x => if OfSendDeferred a = true then act c x a linger else none
    | _ => none
  | .advance =>
    match c.pc, c.iterator with
    | .send x, some (_ :: rest) =>
      if (c.session x).pc = .idle then some { c with pc := .iterate, iterator := some rest }
      else none
    | _, _ => none
  | .dispatch x a linger =>
    match c.pc with
    | .outside => if OfDispatch a = true then act c x a linger else none
    | _ => none
  | .lock =>
    match c.pc with
    | .lock x =>
      if c.sessionLock = false then some { c with pc := .erase x, sessionLock := true } else none
    | _ => none
  | .erase =>
    match c.pc with
    | .erase x => some { c.releaseSession x with pc := c.back x, sessionLock := false }
    | _ => none

omit [LinearOrder S] [DecidableEq T] in
/-- The core thread does not wait for itself, and its iterator stays valid. -/
structure Safe (c : Core S T) : Prop where
  /-- At the `lock_guard` of `ReleaseSession` it does not hold the lock. -/
  lock_free : ∀ x, c.pc = .lock x → c.sessionLock = false
  /-- At the `erase` no iterator is live. -/
  iterator_dead : ∀ x, c.pc = .erase x → c.iterator = none
  /-- A live iterator is inside the set. -/
  iterator_valid : ∀ rest, c.iterator = some rest → rest <:+ c.sessions

omit [LinearOrder S] in
/-- A step of `SendDeferred` in which the system refuses what a connected session sends,
with an error other than `WSAENOBUFS`. -/
def Refused (session : Session T) : RioSend.Action T → Prop
  | .post outcome =>
    session.connected = true ∧ 0 < session.sendBuffer.getSendDataSize ∧ outcome = .failed
  | .commit accepted =>
    session.connected = true ∧ 0 < session.sendCnt ∧ accepted = false ∧
      ∃ n > 0, session.pc = .commit n
  | _ => False

omit [LinearOrder S] [DecidableEq T] in
/-- In `DeferredSend` nothing is refused, or `SetLinger` fails. -/
def Accepted (c : Core S T) : RioCore.Action S T → Prop
  | .inside a linger => ∀ x, c.pc = .send x → Refused (c.session x) a → linger = false
  | _ => True

omit [LinearOrder S] [DecidableEq T] in
/-- The send buffer is not degenerate and its head is not in front of it. -/
structure Sound (session : Session T) : Prop where
  /-- The buffer has room. -/
  capacity_pos : 0 < session.sendBuffer.capacity
  /-- The head is not negative. -/
  head_nonneg : 0 ≤ session.sendBuffer.headPos

omit [LinearOrder S] [DecidableEq T] in
/-- The core thread is outside of `DeferredSend`. -/
structure Outside (c : Core S T) : Prop where
  /-- It dispatches completions. -/
  pc_eq : c.pc = .outside
  /-- It does not hold the lock. -/
  lock_free : c.sessionLock = false
  /-- No iterator is live. -/
  iterator_dead : c.iterator = none
  /-- The send buffers are in order. -/
  sound : ∀ x, Sound (c.session x)

section Sessions

variable {s s' : Session T}

omit [LinearOrder S] [DecidableEq T] in
/-- The chunk loop keeps the capacity and leaves the head inside. -/
theorem writeLoop_head {fuel : ℕ} {rb rb' : RingBuffer UInt8} {data : List UInt8}
    (hcap : 0 < rb.capacity) (hhead : 0 ≤ rb.headPos)
    (h : RingBuffer.writeLoop fuel rb data = some rb') :
    0 < rb'.capacity ∧ 0 ≤ rb'.headPos := by
  induction fuel generalizing rb data with
  | zero => cases h
  | succ fuel ih =>
    rw [RingBuffer.writeLoop] at h
    split at h
    · cases h
      exact ⟨hcap, hhead⟩
    · dsimp only at h
      split at h
      · refine ih ?_ ?_ h
        · exact hcap
        · exact Int.emod_nonneg _ hcap.ne'
      · cases h
        exact ⟨hcap, Int.emod_nonneg _ hcap.ne'⟩

omit [LinearOrder S] [DecidableEq T] in
/-- So does a packet that is written. -/
theorem writeBuffer_head {rb rb' : RingBuffer UInt8} {data : List UInt8} {b : Bool}
    (hcap : 0 < rb.capacity) (hhead : 0 ≤ rb.headPos)
    (h : rb.writeBuffer data = some (b, rb')) : 0 < rb'.capacity ∧ 0 ≤ rb'.headPos := by
  rw [RingBuffer.writeBuffer] at h
  split at h
  · cases h
    exact ⟨hcap, hhead⟩
  · obtain ⟨ring, hring, hout⟩ := Option.map_eq_some_iff.mp h
    cases hout
    obtain ⟨hcap', hhead'⟩ := writeLoop_head hcap hhead hring
    exact ⟨hcap', hhead'⟩

omit [LinearOrder S] [DecidableEq T] in
/-- `OnSendBuffer` accepts the chunk that is posted. -/
theorem Sound.chunk_le (sound : Sound s) :
    s.sendBuffer.getChunkSendSize ≤ s.sendBuffer.getSendDataSize := by
  have hhead := sound.head_nonneg
  rw [RioBuffer.getChunkSendSize, RioBuffer.getSendDataSize]
  split <;> omega

omit [LinearOrder S] [DecidableEq T] in
/-- `RegisterSend` of the chunk disconnects exactly if `RIOSend` fails, and only moves the
send position of the buffer. -/
theorem registerSend_disconnects (sound : Sound s) {outcome : Outcome} {b : Bool}
    (h : s.registerSend s.sendBuffer.getChunkSendSize s.sendBuffer.getSendOffset outcome =
      (b, s')) : Sound s' ∧ s'.pc = s.pc ∧
    (s'.connected = false ↔ s.connected = false ∨ outcome = .failed) := by
  have hchunk := sound.chunk_le
  unfold Session.registerSend at h
  by_cases hc : s.connected = false
  · rw [if_pos hc] at h
    cases h
    exact ⟨sound, rfl, by simp [hc]⟩
  · rw [if_neg hc] at h
    cases outcome with
    | noBufs =>
      cases h
      exact ⟨sound, rfl, by simp [hc]⟩
    | failed =>
      cases h
      exact ⟨⟨sound.capacity_pos, sound.head_nonneg⟩, rfl,
        by simp [Session.disconnect, Session.handleError]⟩
    | ok =>
      dsimp only at h
      rw [RioBuffer.onSendBuffer, if_neg (not_lt.mpr hchunk)] at h
      cases h
      exact ⟨⟨sound.capacity_pos, sound.head_nonneg⟩, rfl, by simp [hc]⟩

omit [LinearOrder S] [DecidableEq T] in
/-- A commit leaves the buffer, and disconnects exactly if it is refused. -/
theorem commitPosted_disconnects (sound : Sound s) (n : ℤ) (accepted : Bool) :
    Sound (s.commitPosted n accepted) ∧
    ((s.commitPosted n accepted).connected = false ↔
      s.connected = false ∨ 0 < n ∧ 0 < s.sendCnt ∧ accepted = false) := by
  unfold Session.commitPosted Session.sendCommit
  by_cases hn : n > 0
  · rw [if_pos hn]
    by_cases hcnt : s.sendCnt ≤ 0
    · rw [if_pos hcnt]
      exact ⟨sound, by simp [not_lt.mpr hcnt]⟩
    · rw [if_neg hcnt]
      cases accepted
      · exact ⟨⟨sound.capacity_pos, sound.head_nonneg⟩,
          by simp [Session.disconnect, hn, not_le.mp hcnt]⟩
      · exact ⟨⟨sound.capacity_pos, sound.head_nonneg⟩, by simp⟩
  · rw [if_neg hn]
    exact ⟨sound, by simp [hn]⟩

omit [LinearOrder S] [DecidableEq T] in
/-- `ProcessSend` reads at the tail. -/
theorem processSend_sound (sound : Sound s) (n : ℤ) : Sound (s.processSend n) := by
  unfold Session.processSend
  split
  · exact ⟨sound.capacity_pos, sound.head_nonneg⟩
  · rw [RingBuffer.onReadBuffer]
    split
    · rename_i hread
      split at hread <;> cases hread
      exact ⟨sound.capacity_pos, sound.head_nonneg⟩
    · exact ⟨sound.capacity_pos, sound.head_nonneg⟩

omit [LinearOrder S] in
/-- Every step of the send path keeps the buffer in order. -/
theorem sound_step (sound : Sound s) {a : RioSend.Action T} (h : RioSend.step s a = some s') :
    Sound s' := by
  cases step_moves h with
  | wrote n packet rest ring hpc hq hw =>
    obtain ⟨hcap, hhead⟩ := writeBuffer_head sound.capacity_pos sound.head_nonneg hw
    exact ⟨hcap, hhead⟩
  | posted outcome s₁ pc hpc hsize hr | notPosted outcome s₁ pc hpc hsize hr =>
    have hs₁ := (registerSend_disconnects sound hr).1
    exact ⟨hs₁.capacity_pos, hs₁.head_nonneg⟩
  | committed n accepted hpc =>
    have hs₁ := (commitPosted_disconnects sound n accepted).1
    exact ⟨hs₁.capacity_pos, hs₁.head_nonneg⟩
  | completed chunk rest hpc hout =>
    refine processSend_sound ?_ chunk.length
    exact ⟨sound.capacity_pos, sound.head_nonneg⟩
  | _ => exact ⟨sound.capacity_pos, sound.head_nonneg⟩

omit [LinearOrder S] in
/-- A step inside `SendDeferred` disconnects a session exactly if the system refuses what
it sends. -/
theorem disconnects_iff (sound : Sound s) {a : RioSend.Action T} (ha : OfSendDeferred a = true)
    (h : RioSend.step s a = some s') :
    s.connected = true ∧ s'.connected = false ↔ Refused s a := by
  cases step_moves h with
  | posted outcome s₁ pc hpc hsize hr | notPosted outcome s₁ pc hpc hsize hr =>
    have hflag := (registerSend_disconnects sound hr).2.2
    show s.connected = true ∧ s₁.connected = false ↔ _
    rw [hflag, Refused]
    cases s.connected <;> simp [hsize]
  | nothing outcome pc hpc hsize => simp [Refused, not_lt.mpr hsize]
  | committed n accepted hpc =>
    have hflag := (commitPosted_disconnects sound n accepted).2
    show s.connected = true ∧ (s.commitPosted n accepted).connected = false ↔ _
    rw [hflag, Refused, hpc]
    cases s.connected <;> simp
    tauto
  | allocated | ignored | checked | pushed | disconnected | skipped | entered | completed =>
    cases ha
  | _ => simp [Refused]

end Sessions

omit [LinearOrder S] [DecidableEq T] in
/-- What the core thread holds, by what it does next. -/
inductive Stage (c : Core S T) : Prop
  | outside (hpc : c.pc = .outside) (hlock : c.sessionLock = false) (hiter : c.iterator = none)
  | iterate (rest : List S) (hpc : c.pc = .iterate) (hlock : c.sessionLock = true)
      (hiter : c.iterator = some rest)
  | send (x : S) (rest : List S) (hpc : c.pc = .send x) (hlock : c.sessionLock = true)
      (hiter : c.iterator = some (x :: rest))
  | lock (x : S) (hpc : c.pc = .lock x) (hlock : c.sessionLock = false)
      (hiter : c.iterator = none)
  | erase (x : S) (hpc : c.pc = .erase x) (hlock : c.sessionLock = true)
      (hiter : c.iterator = none)

omit [LinearOrder S] [DecidableEq T] in
/-- The invariant of a core thread that has not called `ReleaseSession` in `DeferredSend`. -/
structure Inv (c : Core S T) : Prop where
  /-- The send buffers are in order. -/
  sound : ∀ x, Sound (c.session x)
  /-- A live iterator is inside the set. -/
  valid : ∀ rest, c.iterator = some rest → rest <:+ c.sessions
  /-- The lock and the iterator fit the progress of the thread. -/
  stage : Stage c

section Steps

variable {c c' : Core S T} {x : S} {a : RioCore.Action S T}

omit [LinearOrder S] [DecidableEq T] in
/-- Where the lock is free, no iterator is live. -/
theorem Stage.iterator_of_unlocked (stage : Stage c) (hlock : c.sessionLock = false) :
    c.iterator = none := by
  cases stage with
  | outside _ _ hiter | lock _ _ _ hiter => exact hiter
  | iterate _ _ htrue | send _ _ _ htrue | erase _ _ htrue =>
    rw [hlock] at htrue
    cases htrue

omit [LinearOrder S] [DecidableEq T] in
/-- Inside `SendDeferred` the iterator is at the session. -/
theorem Stage.send_of (stage : Stage c) (hpc : c.pc = .send x) :
    c.sessionLock = true ∧ ∃ rest, c.iterator = some (x :: rest) := by
  cases stage with
  | send y rest hy hlock hiter =>
    rw [hpc] at hy
    cases hy
    exact ⟨hlock, rest, hiter⟩
  | outside hother | iterate _ hother | lock _ hother | erase _ hother =>
    rw [hpc] at hother
    cases hother

omit [LinearOrder S] [DecidableEq T] in
/-- Outside of `DeferredSend` nothing is held. -/
theorem Stage.outside_of (stage : Stage c) (hpc : c.pc = .outside) :
    c.sessionLock = false ∧ c.iterator = none := by
  cases stage with
  | outside _ hlock hiter => exact ⟨hlock, hiter⟩
  | iterate _ hother | send _ _ hother | lock _ hother | erase _ hother =>
    rw [hpc] at hother
    cases hother

omit [LinearOrder S] [DecidableEq T] in
/-- The stage does not mention the sessions. -/
theorem Stage.congr (stage : Stage c) (hpc : c'.pc = c.pc)
    (hlock : c'.sessionLock = c.sessionLock) (hiter : c'.iterator = c.iterator) : Stage c' := by
  cases stage with
  | outside h₁ h₂ h₃ => exact .outside (hpc.trans h₁) (hlock.trans h₂) (hiter.trans h₃)
  | iterate rest h₁ h₂ h₃ => exact .iterate rest (hpc.trans h₁) (hlock.trans h₂) (hiter.trans h₃)
  | send x rest h₁ h₂ h₃ => exact .send x rest (hpc.trans h₁) (hlock.trans h₂) (hiter.trans h₃)
  | lock x h₁ h₂ h₃ => exact .lock x (hpc.trans h₁) (hlock.trans h₂) (hiter.trans h₃)
  | erase x h₁ h₂ h₃ => exact .erase x (hpc.trans h₁) (hlock.trans h₂) (hiter.trans h₃)

omit [LinearOrder S] [DecidableEq T] in
/-- The invariant is more than the safety of the core thread. -/
theorem Inv.safe (inv : Inv c) : Safe c := by
  refine ⟨fun x hpc => ?_, fun x hpc => ?_, inv.valid⟩
  · cases inv.stage with
    | lock _ _ hlock => exact hlock
    | outside hother | iterate _ hother | send _ _ hother | erase _ hother =>
      rw [hpc] at hother
      cases hother
  · cases inv.stage with
    | erase _ _ _ hiter => exact hiter
    | outside hother | iterate _ hother | send _ _ hother | lock _ hother =>
      rw [hpc] at hother
      cases hother

omit [LinearOrder S] [DecidableEq T] in
/-- Outside of `DeferredSend` the invariant holds. -/
theorem Outside.inv (outside : Outside c) : Inv c := by
  refine ⟨outside.sound, fun rest h => ?_,
    .outside outside.pc_eq outside.lock_free outside.iterator_dead⟩
  rw [outside.iterator_dead] at h
  cases h

omit [DecidableEq T] in
/-- A session that is in order takes the place of another one. -/
theorem sound_setSession (hsound : ∀ y, Sound (c.session y)) {session : Session T}
    (h : Sound session) (y : S) : Sound ((c.setSession x session).session y) := by
  dsimp only [Core.setSession]
  by_cases hy : y = x
  · subst hy
    rw [Function.update_self]
    exact h
  · rw [Function.update_of_ne hy]
    exact hsound y

/-- A step of the send path done by the core thread, with what it leaves alone. -/
theorem act_cases {b : RioSend.Action T} {linger : Bool} (h : act c x b linger = some c') :
    ∃ session, RioSend.step (c.session x) b = some session ∧
      c' = { c.setSession x session with
        pc := if (c.session x).connected = true ∧ session.connected = false ∧ linger = true then
            .lock x
          else c.back x } := by
  obtain ⟨session, hsession, hc'⟩ := Option.map_eq_some_iff.mp h
  exact ⟨session, hsession, hc'.symm⟩

/-- A step inside `SendDeferred` keeps the invariant if nothing is refused or `SetLinger`
fails. -/
theorem inv_inside (inv : Inv c) {b : RioSend.Action T} {linger : Bool}
    (haccepted : Accepted c (.inside b linger))
    (h : step c (.inside b linger) = some c') : Inv c' := by
  simp only [step] at h
  split at h
  · rename_i x hpc
    split at h
    · rename_i hb
      obtain ⟨session, hsession, rfl⟩ := act_cases h
      obtain ⟨hlock, rest, hiter⟩ := inv.stage.send_of hpc
      have hstay : ¬ ((c.session x).connected = true ∧ session.connected = false ∧
          linger = true) := by
        rintro ⟨hconnected, hflag, hlinger⟩
        have hrefused := (disconnects_iff (inv.sound x) hb hsession).mp ⟨hconnected, hflag⟩
        rw [haccepted x hpc hrefused] at hlinger
        cases hlinger
      have hback : c.back x = .send x := by rw [Core.back, hiter]
      rw [if_neg hstay, hback]
      exact ⟨sound_setSession inv.sound (sound_step (inv.sound x) hsession), inv.valid,
        .send x rest rfl hlock hiter⟩
    · cases h
  · cases h

/-- A step inside `SendDeferred` in which something is refused and `SetLinger` succeeds
leads to the lock that is held. -/
theorem unsafe_inside (inv : Inv c) {b : RioSend.Action T} {linger : Bool}
    (hrefused : ¬ Accepted c (.inside b linger))
    (h : step c (.inside b linger) = some c') : ¬ Safe c' := by
  simp only [step] at h
  split at h
  · rename_i x hpc
    split at h
    · rename_i hb
      obtain ⟨session, hsession, rfl⟩ := act_cases h
      obtain ⟨hlock, rest, hiter⟩ := inv.stage.send_of hpc
      simp only [Accepted, not_forall] at hrefused
      obtain ⟨y, hy, hwas, hlinger⟩ := hrefused
      rw [hpc] at hy
      cases hy
      obtain ⟨hconnected, hflag⟩ := (disconnects_iff (inv.sound x) hb hsession).mpr hwas
      rw [if_pos ⟨hconnected, hflag, by simpa using hlinger⟩]
      intro safe
      have hfree : c.sessionLock = false := safe.lock_free x rfl
      rw [hlock] at hfree
      cases hfree
    · cases h
  · cases h

/-- A completion that is dispatched meets the free lock. -/
theorem inv_dispatch (inv : Inv c) {b : RioSend.Action T} {linger : Bool}
    (h : step c (.dispatch x b linger) = some c') : Inv c' := by
  simp only [step] at h
  split at h
  · rename_i hpc
    split at h
    · obtain ⟨session, hsession, rfl⟩ := act_cases h
      obtain ⟨hlock, hiter⟩ := inv.stage.outside_of hpc
      have hback : c.back x = .outside := by rw [Core.back, hiter]
      refine ⟨sound_setSession inv.sound (sound_step (inv.sound x) hsession), inv.valid, ?_⟩
      rw [hback]
      split
      · exact .lock x rfl hlock hiter
      · exact .outside rfl hlock hiter
    · cases h
  · cases h

/-- A step keeps the invariant if it does not tear a session down in `DeferredSend`. -/
theorem inv_step (inv : Inv c) (haccepted : Accepted c a) (h : step c a = some c') : Inv c' := by
  have hempty : c.iterator = none → ∀ {sessions rest}, c.iterator = some rest →
      rest <:+ sessions := by
    intro hnone _ _ hsome
    rw [hnone] at hsome
    cases hsome
  cases a with
  | addSession x =>
    simp only [step] at h
    split at h <;> cases h
    have hnone := inv.stage.iterator_of_unlocked ‹_›
    exact ⟨inv.sound, fun _ => hempty hnone, inv.stage.congr rfl rfl rfl⟩
  | releaseSession x =>
    simp only [step] at h
    split at h <;> cases h
    have hnone := inv.stage.iterator_of_unlocked ‹_›
    exact ⟨inv.sound, fun _ => hempty hnone, inv.stage.congr rfl rfl rfl⟩
  | other x b =>
    simp only [step] at h
    split at h
    · obtain ⟨session, hsession, rfl⟩ := Option.map_eq_some_iff.mp h
      exact ⟨sound_setSession inv.sound (sound_step (inv.sound x) hsession), inv.valid,
        inv.stage.congr rfl rfl rfl⟩
    · cases h
  | deferredSend =>
    simp only [step] at h
    split at h <;> cases h
    refine ⟨inv.sound, fun rest hrest => ?_, .iterate c.sessions rfl rfl rfl⟩
    cases hrest
    exact List.suffix_refl _
  | iterate currentTime =>
    simp only [step] at h
    split at h
    · cases h
      exact ⟨inv.sound, fun _ => nofun, .outside rfl rfl rfl⟩
    · rename_i x rest hpc hiter
      obtain ⟨session, hsession, rfl⟩ := Option.map_eq_some_iff.mp h
      have hlock : c.sessionLock = true := by
        by_contra hfree
        have hnone := inv.stage.iterator_of_unlocked (by simpa using hfree)
        rw [hnone] at hiter
        cases hiter
      exact ⟨sound_setSession inv.sound (sound_step (inv.sound x) hsession), inv.valid,
        .send x rest rfl hlock hiter⟩
    · cases h
  | inside b linger => exact inv_inside inv haccepted h
  | advance =>
    simp only [step] at h
    split at h
    · rename_i x y rest hpc hiter
      split at h <;> cases h
      refine ⟨inv.sound, fun tail htail => ?_,
        .iterate rest rfl (inv.stage.send_of hpc).1 rfl⟩
      cases htail
      exact (List.suffix_cons y rest).trans (inv.valid _ hiter)
    · cases h
  | dispatch x b linger => exact inv_dispatch inv h
  | lock =>
    simp only [step] at h
    split at h
    · rename_i x hpc
      split at h <;> cases h
      have hnone := inv.stage.iterator_of_unlocked ‹_›
      exact ⟨inv.sound, fun _ => hempty hnone, .erase x rfl rfl hnone⟩
    · cases h
  | erase =>
    simp only [step] at h
    split at h <;> cases h
    rename_i x hpc
    have hnone := inv.safe.iterator_dead x hpc
    have hback : c.back x = .outside := by rw [Core.back, hnone]
    exact ⟨inv.sound, fun _ => hempty hnone, .outside hback rfl hnone⟩

/-- A step is safe exactly if it does not tear a session down in `DeferredSend`. -/
theorem safe_step_iff (inv : Inv c) (h : step c a = some c') : Safe c' ↔ Accepted c a := by
  constructor
  · intro safe
    by_contra hrefused
    cases a with
    | inside b linger => exact unsafe_inside inv hrefused h safe
    | _ => exact hrefused trivial
  · intro haccepted
    exact (inv_step inv haccepted h).safe

end Steps

/-- From any state outside of `DeferredSend`, with any sessions, queues and buffers, a run
never comes to `ReleaseSession` with the lock held or with a live iterator exactly if in
`DeferredSend` the system refuses nothing that a connected session sends, except with
`WSAENOBUFS` or where `SetLinger` fails. -/
theorem deferredSend_safe_iff {c c' : Core S T} {actions : List (RioCore.Action S T)}
    (outside : Outside c) (hr : run step c actions = some c') :
    Always step Safe c actions ↔ StepsMeet step Accepted c actions :=
  always_iff_stepsMeet_of_kept (fun _ _ _ inv _ _ haccepted h => inv_step inv haccepted h)
    (fun _ _ _ inv _ _ h => safe_step_iff inv h) outside.inv outside.inv.safe stepsMeet_true hr

omit [LinearOrder S] [DecidableEq T] in
/-- A new core is outside of `DeferredSend`. -/
theorem init_outside (memory : ℤ → UInt8) : Outside (init memory : Core S T) :=
  ⟨rfl, rfl, rfl, fun _ => ⟨Int.natCast_pos.mpr (Nat.succ_pos 65535), le_rfl⟩⟩

end System

/-- A session with a queued packet is sent from. -/
def sendOnce (outcome : Outcome) : List (RioCore.Action Unit Unit) :=
  [.addSession (), .other () .initSession, .other () (.sendCheck () [4, 0, 7, 0]),
    .other () (.sendPush ()), .deferredSend, .iterate 0, .inside .dequeue true,
    .inside .testLimit true, .inside .dequeue true, .inside (.post outcome) true]

/-- `RIOSend` succeeds: the run is safe. -/
theorem deferredSend_safe_ok : ∃ c, run step (init fun _ => 0) (sendOnce .ok) = some c ∧
    Always step Safe (init fun _ => 0) (sendOnce .ok) := by
  have h : (run step (init fun _ => 0) (sendOnce .ok)).isSome = true := by decide
  obtain ⟨c, hr⟩ := Option.isSome_iff_exists.mp h
  refine ⟨c, hr, (deferredSend_safe_iff (init_outside _) hr).mpr ?_⟩
  refine stepsMeet_of_forall fun a ha d => ?_
  cases a with
  | inside b linger =>
    intro x _ hrefused
    simp only [sendOnce, List.mem_cons, List.not_mem_nil, or_false, false_or, reduceCtorEq,
      Action.inside.injEq] at ha
    rcases ha with ⟨rfl, -⟩ | ⟨rfl, -⟩ | ⟨rfl, -⟩ | ⟨rfl, -⟩ <;> simp [Refused] at hrefused
  | _ => trivial

/-- `RIOSend` fails: the core thread comes to the lock it holds. -/
theorem deferredSend_failed_blocks :
    ∃ c, run step (init fun _ => 0) (sendOnce .failed) = some c ∧ c.pc = .lock () ∧
      c.sessionLock = true ∧ ¬ Safe c := by
  have h : ((run step (init fun _ => 0) (sendOnce .failed)).any fun c =>
      c.pc = .lock () ∧ c.sessionLock = true) = true := by
    decide
  obtain ⟨c, hr, hview⟩ := (Option.any_eq_true _ _).mp h
  obtain ⟨hpc, hlock⟩ := of_decide_eq_true hview
  refine ⟨c, hr, hpc, hlock, fun safe => ?_⟩
  rw [safe.lock_free () hpc] at hlock
  cases hlock

end RioIocpServer.RioCore
