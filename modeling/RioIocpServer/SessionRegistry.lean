import RioIocpServer.TransitionSystem
import Mathlib.Data.Finset.Card
import Mathlib.Data.Int.CardIntervalMod

/-!
# The sessions of a RIO server

The accept thread gives each new session to the core whose turn it is and connects it;
any thread may call `Disconnect` of any session meanwhile, which takes the session from
its core. A call of `AddSession` or `ReleaseSession` holds the lock of the core and is one
step, and so are the accesses to the atomic counters and flags. The index of the next
core is read and written by the accept thread only. An access to `m_rioCores` outside its
bounds is undefined.
-/

namespace RioIocpServer.SessionRegistry

open TransitionSystem

/-- Where the accept thread stands in `RioServer::Accept`. -/
inductive AcceptPc (S : Type*) where
  /-- At `SocketCore::Accept`, with a new session. -/
  | accept
  /-- At `SetCore`. -/
  | setCore (x : S)
  /-- At `AddSession`. -/
  | addSession (x : S)
  /-- At the update of `m_currAllocCoreNum`. -/
  | advance (x : S)
  /-- At the `fetch_add` of `m_sessionCnt`. -/
  | count (x : S)
  /-- At the store of `m_bConnected` in `ProcessConnect`. -/
  | processConnect (x : S)
  /-- An accept has failed, and the loop is left. -/
  | stopped
  deriving DecidableEq

/-- Where a thread stands in `RioSession::Disconnect`. -/
inductive ClosePc (S : Type*) where
  /-- Outside. -/
  | outside
  /-- At `SetLinger`. -/
  | setLinger (x : S)
  /-- The socket is closed and `OnDisconnected` was called; at `ReleaseSession`. -/
  | release (x : S)
  deriving DecidableEq

/-- A core. -/
structure Core (S : Type*) where
  /-- `m_sessions`. -/
  sessions : Finset S
  /-- `m_sessionCnt`. -/
  sessionCnt : ℤ

/-- A server with its sessions. -/
structure State (S T : Type*) where
  /-- `m_rioCores`. -/
  rioCores : ℕ → Core S
  /-- `m_currAllocCoreNum`. -/
  currAllocCoreNum : ℕ
  /-- `m_sessionCnt` of the server. -/
  sessionCnt : BitVec 32
  /-- The accept thread. -/
  acceptPc : AcceptPc S
  /-- `m_rioCore` of the sessions. -/
  rioCore : S → Option ℕ
  /-- `m_bConnected` of the sessions. -/
  connected : S → Bool
  /-- The threads that call `Disconnect`. -/
  closePc : T → ClosePc S
  /-- History: the sessions given to `AddSession`, in order. -/
  added : List S
  /-- History: the sessions given to `ReleaseSession`. -/
  released : List S

/-- The steps. -/
inductive Action (S T : Type*) where
  /-- A new session is made and `SocketCore::Accept` returns. -/
  | accept (x : S) (result : Bool)
  /-- The accept thread goes on. -/
  | next
  /-- `Disconnect` of a session is called: `m_bConnected.exchange(false)`. -/
  | exchange (t : T) (x : S)
  /-- `SetLinger` returns; if it succeeds the thread goes on to `ReleaseSession`. -/
  | setLinger (t : T) (result : Bool)
  /-- `ReleaseSession`. -/
  | release (t : T)

/-- A server that was just started; the constructor does not set `m_sessionCnt`. -/
def init {S T : Type*} (sessionCnt : BitVec 32) : State S T where
  rioCores _ := ⟨∅, 0⟩
  currAllocCoreNum := 0
  sessionCnt := sessionCnt
  acceptPc := .accept
  rioCore _ := none
  connected _ := false
  closePc _ := .outside
  added := []
  released := []

section System

variable {S T : Type*} [DecidableEq S] [DecidableEq T]

/-- `RioCore::AddSession`. -/
def Core.addSession (core : Core S) (x : S) : Core S :=
  ⟨insert x core.sessions, core.sessionCnt + 1⟩

/-- `RioCore::ReleaseSession`. -/
def Core.releaseSession (core : Core S) (x : S) : Core S :=
  ⟨core.sessions.erase x, core.sessionCnt - 1⟩

/-- One step of a server with `coreCnt` cores. -/
def step (coreCnt : ℕ) (s : State S T) : Action S T → Option (State S T)
  | .accept x result =>
    match s.acceptPc with
    | .accept =>
      if x ∈ s.added then none
      else if result = true then some { s with acceptPc := .setCore x }
      else some { s with acceptPc := .stopped }
    | _ => none
  | .next =>
    match s.acceptPc with
    | .setCore x =>
      if s.currAllocCoreNum < coreCnt then
        some { s with
          rioCore := Function.update s.rioCore x (some s.currAllocCoreNum)
          acceptPc := .addSession x }
      else none
    | .addSession x =>
      if s.currAllocCoreNum < coreCnt then
        some { s with
          rioCores := Function.update s.rioCores s.currAllocCoreNum
            ((s.rioCores s.currAllocCoreNum).addSession x)
          added := s.added ++ [x]
          acceptPc := .advance x }
      else none
    | .advance x =>
      some { s with
        currAllocCoreNum := (s.currAllocCoreNum + 1) % coreCnt
        acceptPc := .count x }
    | .count x => some { s with sessionCnt := s.sessionCnt + 1, acceptPc := .processConnect x }
    | .processConnect x =>
      some { s with connected := Function.update s.connected x true, acceptPc := .accept }
    | _ => none
  | .exchange t x =>
    match s.closePc t with
    | .outside =>
      if s.connected x = true then
        some { s with
          connected := Function.update s.connected x false
          closePc := Function.update s.closePc t (.setLinger x) }
      else some s
    | _ => none
  | .setLinger t result =>
    match s.closePc t with
    | .setLinger x =>
      some { s with
        closePc := Function.update s.closePc t (if result = true then .release x else .outside) }
    | _ => none
  | .release t =>
    match s.closePc t with
    | .release x =>
      match s.rioCore x with
      | some core =>
        some { s with
          rioCores := Function.update s.rioCores core ((s.rioCores core).releaseSession x)
          released := s.released ++ [x]
          closePc := Function.update s.closePc t .outside }
      | none => none
    | _ => none

/-- What one step can do, with what it has tested. -/
inductive Moves (coreCnt : ℕ) (s : State S T) : Action S T → State S T → Prop
  | accepted (x : S) (hpc : s.acceptPc = .accept) (hnew : x ∉ s.added) :
      Moves coreCnt s (.accept x true) { s with acceptPc := .setCore x }
  | failed (x : S) (hpc : s.acceptPc = .accept) :
      Moves coreCnt s (.accept x false) { s with acceptPc := .stopped }
  | coreSet {x : S} (hpc : s.acceptPc = .setCore x) :
      Moves coreCnt s .next { s with
        rioCore := Function.update s.rioCore x (some s.currAllocCoreNum)
        acceptPc := .addSession x }
  | sessionAdded {x : S} (hpc : s.acceptPc = .addSession x) :
      Moves coreCnt s .next { s with
        rioCores := Function.update s.rioCores s.currAllocCoreNum
          ((s.rioCores s.currAllocCoreNum).addSession x)
        added := s.added ++ [x]
        acceptPc := .advance x }
  | advanced {x : S} (hpc : s.acceptPc = .advance x) :
      Moves coreCnt s .next { s with
        currAllocCoreNum := (s.currAllocCoreNum + 1) % coreCnt
        acceptPc := .count x }
  | counted {x : S} (hpc : s.acceptPc = .count x) :
      Moves coreCnt s .next
        { s with sessionCnt := s.sessionCnt + 1, acceptPc := .processConnect x }
  | connected {x : S} (hpc : s.acceptPc = .processConnect x) :
      Moves coreCnt s .next
        { s with connected := Function.update s.connected x true, acceptPc := .accept }
  | refused (t : T) (x : S) : Moves coreCnt s (.exchange t x) s
  | exchanged {t : T} {x : S} (ht : s.closePc t = .outside) (hx : s.connected x = true) :
      Moves coreCnt s (.exchange t x) { s with
        connected := Function.update s.connected x false
        closePc := Function.update s.closePc t (.setLinger x) }
  | lingered {t : T} {x : S} (ht : s.closePc t = .setLinger x) (result : Bool) :
      Moves coreCnt s (.setLinger t result) { s with
        closePc := Function.update s.closePc t (if result = true then .release x else .outside) }
  | released {t : T} {x : S} {core : ℕ} (ht : s.closePc t = .release x)
      (hcore : s.rioCore x = some core) :
      Moves coreCnt s (.release t) { s with
        rioCores := Function.update s.rioCores core ((s.rioCores core).releaseSession x)
        released := s.released ++ [x]
        closePc := Function.update s.closePc t .outside }

/-- Every enabled step is one of the moves. -/
theorem step_moves {coreCnt : ℕ} {s s' : State S T} {a : Action S T}
    (h : step coreCnt s a = some s') : Moves coreCnt s a s' := by
  cases a with
  | accept x result =>
    simp only [step] at h
    split at h
    · split at h
      · cases h
      · cases result <;> cases h
        · exact .failed x ‹_›
        · exact .accepted x ‹_› ‹_›
    · cases h
  | next =>
    simp only [step] at h
    split at h
    · split at h <;> cases h
      exact .coreSet ‹_›
    · split at h <;> cases h
      exact .sessionAdded ‹_›
    · cases h
      exact .advanced ‹_›
    · cases h
      exact .counted ‹_›
    · cases h
      exact .connected ‹_›
    · cases h
  | exchange t x =>
    simp only [step] at h
    split at h
    · split at h <;> cases h
      · exact .exchanged ‹_› ‹_›
      · exact .refused t x
    · cases h
  | setLinger t result =>
    simp only [step] at h
    split at h <;> cases h
    exact .lingered ‹_› result
  | release t =>
    simp only [step] at h
    split at h
    · split at h <;> cases h
      exact .released ‹_› ‹_›
    · cases h

end System

/-- The session that is not added yet. -/
def AcceptPc.unadded {S : Type*} : AcceptPc S → Option S
  | .setCore x => some x
  | .addSession x => some x
  | _ => none

/-- The session that is added and not connected yet. -/
def AcceptPc.connecting {S : Type*} : AcceptPc S → Option S
  | .advance x => some x
  | .count x => some x
  | .processConnect x => some x
  | _ => none

/-- The added sessions `m_currAllocCoreNum` lags behind. -/
def AcceptPc.behind {S : Type*} : AcceptPc S → ℕ
  | .advance _ => 1
  | _ => 0

/-- The added sessions `m_sessionCnt` lags behind. -/
def AcceptPc.uncounted {S : Type*} : AcceptPc S → ℕ
  | .advance _ => 1
  | .count _ => 1
  | _ => 0

/-- The session a thread closes. -/
def ClosePc.session {S : Type*} : ClosePc S → Option S
  | .outside => none
  | .setLinger x => some x
  | .release x => some x

section Invariant

variable {S T : Type*} {coreCnt : ℕ} {sessionCnt : BitVec 32} {s s' : State S T}

/-- What the cores and the counters have of the sessions that were added and released. -/
structure Registry (coreCnt : ℕ) (sessionCnt : BitVec 32) (s : State S T) : Prop where
  /-- No session is added twice. -/
  nodup : s.added.Nodup
  /-- The index of the next core goes round. -/
  index : s.currAllocCoreNum = (s.added.length - s.acceptPc.behind) % coreCnt
  /-- The sessions were given to the cores in turn. -/
  core : ∀ i x, s.added[i]? = some x → s.rioCore x = some (i % coreCnt)
  /-- The next session is given to the next core. -/
  placed : ∀ x, s.acceptPc = .addSession x → s.rioCore x = some s.currAllocCoreNum
  /-- It is new. -/
  unadded : ∀ x, s.acceptPc.unadded = some x → x ∉ s.added
  /-- Only added sessions are released. -/
  released : ∀ x ∈ s.released, x ∈ s.added
  /-- A core has the sessions that were given to it and not released. -/
  mem_iff : ∀ c x, x ∈ (s.rioCores c).sessions ↔
    x ∈ s.added ∧ x ∉ s.released ∧ s.rioCore x = some c
  /-- Its counter is the number of its sessions. -/
  card : ∀ c, (s.rioCores c).sessionCnt = (s.rioCores c).sessions.card
  /-- The counter of the server counts the added ones. -/
  total : s.sessionCnt + BitVec.ofNat 32 s.acceptPc.uncounted =
    sessionCnt + BitVec.ofNat 32 s.added.length

/-- A session is added and not released. -/
def Registered (s : State S T) (x : S) : Prop := x ∈ s.added ∧ x ∉ s.released

/-- A session is connected once and closed by one thread. -/
structure Lives (s : State S T) : Prop where
  /-- A session that is about to be connected is in no other hand. -/
  connecting : ∀ x, s.acceptPc.connecting = some x →
    Registered s x ∧ s.connected x = false ∧ ∀ t, (s.closePc t).session ≠ some x
  /-- A connected session is closed by nobody. -/
  connected : ∀ x, s.connected x = true → Registered s x ∧ ∀ t, (s.closePc t).session ≠ some x
  /-- A session is closed by one thread. -/
  closing : ∀ t x, (s.closePc t).session = some x →
    Registered s x ∧ ∀ u, (s.closePc u).session = some x → u = t

/-- The invariant. -/
structure Inv (coreCnt : ℕ) (sessionCnt : BitVec 32) (s : State S T) : Prop where
  registry : Registry coreCnt sessionCnt s
  lives : Lives s

theorem inv_init : Inv coreCnt sessionCnt (init sessionCnt : State S T) where
  registry :=
    { nodup := List.nodup_nil
      index := (Nat.zero_mod coreCnt).symm
      core := by simp [init]
      placed := by simp [init]
      unadded := by simp [init]
      released := by simp [init]
      mem_iff := by simp [init]
      card := by simp [init]
      total := rfl }
  lives :=
    { connecting := by simp [init, AcceptPc.connecting]
      connected := by simp [init]
      closing := by simp [init, ClosePc.session] }

section Steps

variable [DecidableEq S] [DecidableEq T]

omit [DecidableEq T] in
/-- `SetCore` concerns a session that no core has. -/
theorem Registry.coreSet (reg : Registry coreCnt sessionCnt s) {x : S}
    (hpc : s.acceptPc = .setCore x) : Registry coreCnt sessionCnt { s with
      rioCore := Function.update s.rioCore x (some s.currAllocCoreNum)
      acceptPc := .addSession x } := by
  have hnew : x ∉ s.added := reg.unadded x (by rw [hpc]; rfl)
  have hother : ∀ y ∈ s.added,
      Function.update s.rioCore x (some s.currAllocCoreNum) y = s.rioCore y := by
    intro y hy
    refine Function.update_of_ne ?_ _ _
    rintro rfl
    exact hnew hy
  have hindex := reg.index
  have htotal := reg.total
  rw [hpc] at hindex htotal
  refine ⟨reg.nodup, hindex, fun i y hy => ?_, fun y hy => ?_, fun y hy => ?_, reg.released,
    fun c y => ?_, reg.card, htotal⟩
  · exact (hother y (List.mem_of_getElem? hy)).trans (reg.core i y hy)
  · cases hy
    exact Function.update_self x _ _
  · cases hy
    exact hnew
  · rw [reg.mem_iff]
    refine and_congr_right fun hy => and_congr_right fun _ => ?_
    show _ ↔ Function.update s.rioCore x (some s.currAllocCoreNum) y = some c
    rw [hother y hy]

omit [DecidableEq T] in
/-- `AddSession` puts the new session into the set of its core. -/
theorem Registry.sessionAdded (reg : Registry coreCnt sessionCnt s) {x : S}
    (hpc : s.acceptPc = .addSession x) : Registry coreCnt sessionCnt { s with
      rioCores := Function.update s.rioCores s.currAllocCoreNum
        ((s.rioCores s.currAllocCoreNum).addSession x)
      added := s.added ++ [x]
      acceptPc := .advance x } := by
  have hnew : x ∉ s.added := reg.unadded x (by rw [hpc]; rfl)
  have hplaced := reg.placed x hpc
  have hindex := reg.index
  have htotal := reg.total
  rw [hpc] at hindex htotal
  have hlength : (s.added ++ [x]).length = s.added.length + 1 := by simp
  refine ⟨?_, ?_, fun i y hy => ?_, fun _ h => ?_, fun _ h => ?_, fun y hy => ?_, fun c y => ?_,
    fun c => ?_, ?_⟩
  · rw [← List.concat_eq_append]
    exact (List.nodup_concat _ _).mpr ⟨hnew, reg.nodup⟩
  · show s.currAllocCoreNum = ((s.added ++ [x]).length - 1) % coreCnt
    rw [hlength, Nat.add_sub_cancel]
    exact hindex
  · rcases lt_or_ge i s.added.length with hi | hi
    · rw [List.getElem?_append_left hi] at hy
      exact reg.core i y hy
    · rw [List.getElem?_append_right hi, List.getElem?_singleton] at hy
      obtain ⟨hzero, rfl⟩ : i - s.added.length = 0 ∧ x = y := by
        simpa only [Option.ite_none_right_eq_some, Option.some.injEq] using hy
      have hi' : i = s.added.length := by omega
      rw [hplaced, hindex, hi']
      rfl
  · cases h
  · cases h
  · exact List.mem_append_left _ (reg.released y hy)
  · show y ∈ (Function.update s.rioCores s.currAllocCoreNum _ c).sessions ↔
      y ∈ s.added ++ [x] ∧ y ∉ s.released ∧ s.rioCore y = some c
    have hx : x ∉ s.released := fun h => hnew (reg.released x h)
    rw [List.mem_append, List.mem_singleton]
    by_cases hy : y = x
    · subst hy
      by_cases hc : c = s.currAllocCoreNum
      · subst hc
        simp [Core.addSession, hx, hplaced]
      · have hne : s.currAllocCoreNum ≠ c := Ne.symm hc
        rw [Function.update_of_ne hc, reg.mem_iff]
        simp [hnew, hplaced, hne]
    · by_cases hc : c = s.currAllocCoreNum
      · subst hc
        simp [Core.addSession, hy, reg.mem_iff]
      · rw [Function.update_of_ne hc, reg.mem_iff]
        simp [hy]
  · show (Function.update s.rioCores s.currAllocCoreNum _ c).sessionCnt = _
    by_cases hc : c = s.currAllocCoreNum
    · subst hc
      have hnot : x ∉ (s.rioCores s.currAllocCoreNum).sessions := fun h =>
        hnew ((reg.mem_iff _ _).mp h).1
      simp [Core.addSession, reg.card, Finset.card_insert_of_notMem hnot]
    · simp only [Function.update_of_ne hc]
      exact reg.card c
  · show s.sessionCnt + BitVec.ofNat 32 1 = sessionCnt + BitVec.ofNat 32 (s.added ++ [x]).length
    have hold : s.sessionCnt = sessionCnt + BitVec.ofNat 32 s.added.length := by
      simpa [AcceptPc.uncounted] using htotal
    rw [hlength, BitVec.ofNat_add, ← BitVec.add_assoc, hold]

/-- `ReleaseSession` takes a session out of the set that has it. -/
theorem Registry.sessionReleased (reg : Registry coreCnt sessionCnt s) {t : T}
    {x : S} {core : ℕ} (hx : Registered s x) (hcore : s.rioCore x = some core) :
    Registry coreCnt sessionCnt { s with
      rioCores := Function.update s.rioCores core ((s.rioCores core).releaseSession x)
      released := s.released ++ [x]
      closePc := Function.update s.closePc t .outside } := by
  refine ⟨reg.nodup, reg.index, reg.core, reg.placed, reg.unadded, fun y hy => ?_, fun c y => ?_,
    fun c => ?_, reg.total⟩
  · rcases List.mem_append.mp hy with hy | hy
    · exact reg.released y hy
    · rw [List.mem_singleton.mp hy]
      exact hx.1
  · show y ∈ (Function.update s.rioCores core _ c).sessions ↔
      y ∈ s.added ∧ y ∉ s.released ++ [x] ∧ s.rioCore y = some c
    rw [List.mem_append, List.mem_singleton]
    by_cases hc : c = core
    · subst hc
      simp only [Function.update_self, Core.releaseSession, Finset.mem_erase, reg.mem_iff]
      tauto
    · rw [Function.update_of_ne hc, reg.mem_iff]
      have hne : s.rioCore y = some c → y ≠ x := by
        rintro hy rfl
        exact hc (Option.some.inj (hy.symm.trans hcore))
      tauto
  · show (Function.update s.rioCores core _ c).sessionCnt = _
    by_cases hc : c = core
    · subst hc
      have hmem : x ∈ (s.rioCores c).sessions := (reg.mem_iff c x).mpr ⟨hx.1, hx.2, hcore⟩
      have hpos := Finset.card_pos.mpr ⟨x, hmem⟩
      simp only [Function.update_self, Core.releaseSession, reg.card, Finset.card_erase_of_mem hmem]
      omega
    · simp only [Function.update_of_ne hc]
      exact reg.card c

/-- A step keeps what the cores and the counters have. -/
theorem registry_step (inv : Inv coreCnt sessionCnt s) {a : Action S T}
    (h : Moves coreCnt s a s') : Registry coreCnt sessionCnt s' := by
  obtain ⟨reg, lives⟩ := inv
  have hindex := reg.index
  have htotal := reg.total
  cases h with
  | accepted x hpc hnew =>
    rw [hpc] at hindex htotal
    refine ⟨reg.nodup, hindex, reg.core, fun y hy => ?_, fun y hy => ?_, reg.released, reg.mem_iff,
      reg.card, htotal⟩
    · cases hy
    · cases hy
      exact hnew
  | failed x hpc =>
    rw [hpc] at hindex htotal
    refine ⟨reg.nodup, hindex, reg.core, fun y hy => ?_, fun y hy => ?_, reg.released, reg.mem_iff,
      reg.card, htotal⟩
    · cases hy
    · cases hy
  | coreSet hpc => exact reg.coreSet hpc
  | sessionAdded hpc => exact reg.sessionAdded hpc
  | @advanced x hpc =>
    rw [hpc] at hindex htotal
    have hpos : 0 < s.added.length :=
      List.length_pos_of_mem (lives.connecting x (by rw [hpc]; rfl)).1.1
    refine ⟨reg.nodup, ?_, reg.core, fun y hy => ?_, fun y hy => ?_, reg.released, reg.mem_iff,
      reg.card, htotal⟩
    · show (s.currAllocCoreNum + 1) % coreCnt = s.added.length % coreCnt
      rw [hindex, Nat.mod_add_mod, AcceptPc.behind, Nat.sub_add_cancel hpos]
    · cases hy
    · cases hy
  | counted hpc =>
    rw [hpc] at hindex htotal
    refine ⟨reg.nodup, hindex, reg.core, fun y hy => ?_, fun y hy => ?_, reg.released, reg.mem_iff,
      reg.card, ?_⟩
    · cases hy
    · cases hy
    · rw [← htotal]
      exact BitVec.add_zero _
  | connected hpc =>
    rw [hpc] at hindex htotal
    refine ⟨reg.nodup, hindex, reg.core, fun y hy => ?_, fun y hy => ?_, reg.released, reg.mem_iff,
      reg.card, htotal⟩
    · cases hy
    · cases hy
  | refused t x => exact reg
  | exchanged ht hx =>
    exact ⟨reg.nodup, reg.index, reg.core, reg.placed, reg.unadded, reg.released, reg.mem_iff,
      reg.card, reg.total⟩
  | lingered ht result =>
    exact ⟨reg.nodup, reg.index, reg.core, reg.placed, reg.unadded, reg.released, reg.mem_iff,
      reg.card, reg.total⟩
  | @released t x core ht hcore =>
    exact reg.sessionReleased (lives.closing t x (by rw [ht]; rfl)).1 hcore

omit [DecidableEq S] in
/-- A thread that closes no other session than before leaves the sessions as they are. -/
theorem Lives.closer (lives : Lives s) {t : T} {pc : ClosePc S}
    (hpc : ∀ x, pc.session = some x → (s.closePc t).session = some x) :
    Lives { s with closePc := Function.update s.closePc t pc } := by
  have hfewer : ∀ u x, (Function.update s.closePc t pc u).session = some x →
      (s.closePc u).session = some x := by
    intro u x hu
    by_cases hut : u = t
    · subst hut
      rw [Function.update_self] at hu
      exact hpc x hu
    · rwa [Function.update_of_ne hut] at hu
  refine ⟨fun x hx => ?_, fun x hx => ?_, fun u x hu => ?_⟩
  · obtain ⟨hreg, hoff, hnobody⟩ := lives.connecting x hx
    exact ⟨hreg, hoff, fun u hu => hnobody u (hfewer u x hu)⟩
  · obtain ⟨hreg, hnobody⟩ := lives.connected x hx
    exact ⟨hreg, fun u hu => hnobody u (hfewer u x hu)⟩
  · obtain ⟨hreg, hone⟩ := lives.closing u x (hfewer u x hu)
    exact ⟨hreg, fun v hv => hone v (hfewer v x hv)⟩

/-- The thread that finds a session connected is the one that closes it. -/
theorem Lives.exchanged (lives : Lives s) {t : T} {x : S} (hx : s.connected x = true) :
    Lives { s with
      connected := Function.update s.connected x false
      closePc := Function.update s.closePc t (.setLinger x) } := by
  obtain ⟨hreg, hnobody⟩ := lives.connected x hx
  have hclosers : ∀ u y, (Function.update s.closePc t (.setLinger x) u).session = some y →
      u = t ∧ y = x ∨ u ≠ t ∧ y ≠ x ∧ (s.closePc u).session = some y := by
    intro u y hu
    by_cases hut : u = t
    · subst hut
      rw [Function.update_self] at hu
      cases hu
      exact .inl ⟨rfl, rfl⟩
    · rw [Function.update_of_ne hut] at hu
      refine .inr ⟨hut, ?_, hu⟩
      rintro rfl
      exact hnobody u hu
  have hconnected : ∀ y, y ≠ x → Function.update s.connected x false y = s.connected y :=
    fun y hy => Function.update_of_ne hy _ _
  refine ⟨fun y hy => ?_, fun y hy => ?_, fun u y hu => ?_⟩
  · obtain ⟨hregy, hoff, hnone⟩ := lives.connecting y hy
    have hne : y ≠ x := by
      rintro rfl
      rw [hx] at hoff
      cases hoff
    refine ⟨hregy, (hconnected y hne).trans hoff, fun u hu => ?_⟩
    rcases hclosers u y hu with ⟨-, heq⟩ | ⟨-, -, hold⟩
    · exact hne heq
    · exact hnone u hold
  · have hne : y ≠ x := by
      rintro rfl
      have hoff : Function.update s.connected y false y = true := hy
      rw [Function.update_self] at hoff
      cases hoff
    obtain ⟨hregy, hnone⟩ := lives.connected y ((hconnected y hne).symm.trans hy)
    refine ⟨hregy, fun u hu => ?_⟩
    rcases hclosers u y hu with ⟨-, heq⟩ | ⟨-, -, hold⟩
    · exact hne heq
    · exact hnone u hold
  · rcases hclosers u y hu with ⟨rfl, rfl⟩ | ⟨hut, hne, hold⟩
    · refine ⟨hreg, fun v hv => ?_⟩
      rcases hclosers v y hv with ⟨heq, -⟩ | ⟨-, hne, -⟩
      · exact heq
      · exact (hne rfl).elim
    · obtain ⟨hregy, hone⟩ := lives.closing u y hold
      refine ⟨hregy, fun v hv => ?_⟩
      rcases hclosers v y hv with ⟨-, heq⟩ | ⟨-, -, holdv⟩
      · exact (hne heq).elim
      · exact hone v holdv

omit [DecidableEq S] in
/-- A session that is released was in the hands of one thread. -/
theorem Lives.sessionReleased (lives : Lives s) {t : T} {x : S}
    (ht : (s.closePc t).session = some x) {rioCores : ℕ → Core S} :
    Lives { s with
      rioCores := rioCores
      released := s.released ++ [x]
      closePc := Function.update s.closePc t .outside } := by
  have hone := (lives.closing t x ht).2
  have hstays : ∀ y, y ≠ x → Registered s y → y ∈ s.added ∧ y ∉ s.released ++ [x] := by
    rintro y hne ⟨hin, hnot⟩
    refine ⟨hin, fun h => ?_⟩
    rcases List.mem_append.mp h with h | h
    · exact hnot h
    · exact hne (List.mem_singleton.mp h)
  have lives' : Lives { s with closePc := Function.update s.closePc t .outside } :=
    lives.closer fun _ h => by cases h
  refine ⟨fun y hy => ?_, fun y hy => ?_, fun u y hu => ?_⟩
  · obtain ⟨hreg, hoff, hnobody⟩ := lives'.connecting y hy
    refine ⟨hstays y ?_ hreg, hoff, hnobody⟩
    rintro rfl
    exact (lives.connecting y hy).2.2 t ht
  · obtain ⟨hreg, hnobody⟩ := lives'.connected y hy
    refine ⟨hstays y ?_ hreg, hnobody⟩
    rintro rfl
    exact (lives.connected y hy).2 t ht
  · obtain ⟨hreg, honey⟩ := lives'.closing u y hu
    refine ⟨hstays y ?_ hreg, honey⟩
    rintro rfl
    by_cases hut : u = t
    · subst hut
      have hnone : (Function.update s.closePc u .outside u).session = some y := hu
      rw [Function.update_self] at hnone
      cases hnone
    · have hold : (Function.update s.closePc t .outside u).session = some y := hu
      rw [Function.update_of_ne hut] at hold
      exact hut (hone u hold)

/-- A step keeps the sessions in one hand. -/
theorem lives_step (inv : Inv coreCnt sessionCnt s) {a : Action S T}
    (h : Moves coreCnt s a s') : Lives s' := by
  obtain ⟨reg, lives⟩ := inv
  cases h with
  | accepted x hpc hnew => exact ⟨fun y hy => (by cases hy), lives.connected, lives.closing⟩
  | failed x hpc => exact ⟨fun y hy => (by cases hy), lives.connected, lives.closing⟩
  | coreSet hpc => exact ⟨fun y hy => (by cases hy), lives.connected, lives.closing⟩
  | @sessionAdded x hpc =>
    have hnew : x ∉ s.added := reg.unadded x (by rw [hpc]; rfl)
    have hmore : ∀ y, Registered s y → y ∈ s.added ++ [x] ∧ y ∉ s.released := fun y hy =>
      ⟨List.mem_append_left _ hy.1, hy.2⟩
    refine ⟨fun y hy => ?_, fun y hy => ?_, fun t y ht => ?_⟩
    · cases hy
      refine ⟨⟨List.mem_append_right _ (List.mem_singleton_self x),
        fun hrel => hnew (reg.released x hrel)⟩, ?_, fun t ht => ?_⟩
      · exact Bool.eq_false_iff.mpr fun hon => hnew (lives.connected x hon).1.1
      · exact hnew (lives.closing t x ht).1.1
    · exact ⟨hmore y (lives.connected y hy).1, (lives.connected y hy).2⟩
    · exact ⟨hmore y (lives.closing t y ht).1, (lives.closing t y ht).2⟩
  | advanced hpc =>
    exact ⟨fun y hy => lives.connecting y (by rw [hpc]; exact hy), lives.connected, lives.closing⟩
  | counted hpc =>
    exact ⟨fun y hy => lives.connecting y (by rw [hpc]; exact hy), lives.connected, lives.closing⟩
  | @connected x hpc =>
    obtain ⟨hreg, -, hnobody⟩ := lives.connecting x (by rw [hpc]; rfl)
    refine ⟨fun y hy => (by cases hy), fun y hy => ?_, lives.closing⟩
    by_cases hyx : y = x
    · subst hyx
      exact ⟨hreg, hnobody⟩
    · have hold : Function.update s.connected x true y = true := hy
      rw [Function.update_of_ne hyx] at hold
      exact lives.connected y hold
  | refused t x => exact lives
  | exchanged ht hx => exact lives.exchanged hx
  | lingered ht result =>
    refine lives.closer fun y hy => ?_
    rw [ht]
    cases result with
    | false => cases hy
    | true => exact hy
  | released ht hcore => exact lives.sessionReleased (by rw [ht]; rfl)

/-- The invariant holds throughout every run. -/
theorem inv_reachable (h : Reachable (step coreCnt) (init sessionCnt) s) :
    Inv coreCnt sessionCnt s :=
  h.invariant inv_init fun _ _ _ inv hs =>
    ⟨registry_step inv (step_moves hs), lives_step inv (step_moves hs)⟩

end Steps

end Invariant

section Balance

variable {S T : Type*} {coreCnt : ℕ} {sessionCnt : BitVec 32} {s : State S T}

/-- Things dealt out in turn are dealt out evenly. -/
theorem countP_in_turn (hpos : 0 < coreCnt) {items : List S} {f : S → Option ℕ}
    (h : ∀ i x, items[i]? = some x → f x = some (i % coreCnt)) {c : ℕ} (hc : c < coreCnt) :
    items.countP (fun x => f x = some c) =
      items.length / coreCnt + if c < items.length % coreCnt then 1 else 0 := by
  have hcount : items.countP (fun x => f x = some c) =
      Nat.count (· ≡ c [MOD coreCnt]) items.length := by
    induction items using List.reverseRecOn with
    | nil => rfl
    | append_singleton items x ih =>
      have hinit : ∀ i y, items[i]? = some y → f y = some (i % coreCnt) := by
        intro i y hy
        refine h i y ?_
        rw [List.getElem?_append_left (List.getElem?_eq_some_iff.mp hy).1]
        exact hy
      have hlast : f x = some (items.length % coreCnt) := h _ x List.getElem?_concat_length
      rw [List.countP_append, ih hinit, List.countP_singleton, List.length_append,
        List.length_singleton, Nat.count_succ, hlast]
      simp [Nat.ModEq, Nat.mod_eq_of_lt hc]
  rw [hcount, Nat.count_modEq_card _ hpos, Nat.mod_eq_of_lt hc]

/-- The sessions of a server are spread over its cores and kept there. -/
structure Sound (coreCnt : ℕ) (sessionCnt : BitVec 32) (s : State S T) [DecidableEq S] : Prop where
  /-- `m_currAllocCoreNum` is inside `m_rioCores`. -/
  index_lt : s.currAllocCoreNum < coreCnt
  /-- Each core was given its share of the sessions, the first ones one more. -/
  load : ∀ c < coreCnt, s.added.countP (fun x => s.rioCore x = some c) =
    s.added.length / coreCnt + if c < s.added.length % coreCnt then 1 else 0
  /-- A connected session is in the set of a core, where `DeferredSend` finds it. -/
  served : ∀ x, s.connected x = true → ∃ c < coreCnt, x ∈ (s.rioCores c).sessions
  /-- A session is in the set of one core at most. -/
  one_core : ∀ x c d, x ∈ (s.rioCores c).sessions → x ∈ (s.rioCores d).sessions → c = d
  /-- `ReleaseSession` is called once for a session, by one thread, on the core that has it. -/
  release : ∀ t x, s.closePc t = .release x → x ∉ s.released ∧
    (∀ u, (s.closePc u).session = some x → u = t) ∧
    ∃ c < coreCnt, s.rioCore x = some c ∧ x ∈ (s.rioCores c).sessions
  /-- `m_sessionCnt` of a core is the number of sessions it was given less those released. -/
  card : ∀ c, (s.rioCores c).sessionCnt =
    s.added.countP fun x => s.rioCore x = some c ∧ x ∉ s.released
  /-- `m_sessionCnt` of the server goes up with every session and never down. -/
  total : s.sessionCnt + BitVec.ofNat 32 s.acceptPc.uncounted =
    sessionCnt + BitVec.ofNat 32 s.added.length

/-- An added session has a core. -/
theorem Registry.exists_core (reg : Registry coreCnt sessionCnt s) (hpos : 0 < coreCnt) {x : S}
    (hx : x ∈ s.added) : ∃ c < coreCnt, s.rioCore x = some c := by
  obtain ⟨i, hi⟩ := List.mem_iff_getElem?.mp hx
  exact ⟨i % coreCnt, Nat.mod_lt i hpos, reg.core i x hi⟩

/-- A server with the invariant is sound. -/
theorem Inv.sound [DecidableEq S] (inv : Inv coreCnt sessionCnt s) (hpos : 0 < coreCnt) :
    Sound coreCnt sessionCnt s := by
  obtain ⟨reg, lives⟩ := inv
  refine ⟨?_, fun c hc => countP_in_turn hpos reg.core hc, fun x hx => ?_, fun x c d hc hd => ?_,
    fun t x ht => ?_, fun c => ?_, reg.total⟩
  · rw [reg.index]
    exact Nat.mod_lt _ hpos
  · obtain ⟨⟨hadded, hnot⟩, -⟩ := lives.connected x hx
    obtain ⟨c, hlt, hcore⟩ := reg.exists_core hpos hadded
    exact ⟨c, hlt, (reg.mem_iff c x).mpr ⟨hadded, hnot, hcore⟩⟩
  · have hcore := ((reg.mem_iff c x).mp hc).2.2
    have hcore' := ((reg.mem_iff d x).mp hd).2.2
    exact Option.some.inj (hcore.symm.trans hcore')
  · obtain ⟨⟨hadded, hnot⟩, hone⟩ := lives.closing t x (by rw [ht]; rfl)
    obtain ⟨c, hlt, hcore⟩ := reg.exists_core hpos hadded
    exact ⟨hnot, hone, c, hlt, hcore, (reg.mem_iff c x).mpr ⟨hadded, hnot, hcore⟩⟩
  · have hset : (s.rioCores c).sessions =
        (s.added.filter fun x => s.rioCore x = some c ∧ x ∉ s.released).toFinset := by
      ext x
      rw [reg.mem_iff, List.mem_toFinset, List.mem_filter, decide_eq_true_eq]
      tauto
    rw [reg.card, hset, List.toFinset_card_of_nodup (reg.nodup.filter _),
      List.countP_eq_length_filter]

end Balance

end RioIocpServer.SessionRegistry
