import RioIocpServer.SessionInit

/-!
# Requests on sessions that are being initialised

The invariant says of every session what it has at each position of the accept thread,
that only an initialised session is allocated, sent from and received for, and that one
that is not initialised is connected only until `RegisterRecv` tests it.
-/

namespace RioIocpServer.SessionInit

open TransitionSystem RioSend RioCore

section Invariant

variable {S T : Type*} [LinearOrder S] [DecidableEq T]

/-- What holds of one session in every state. -/
structure SessionInv (st : State S T) (x : S) : Prop where
  /-- Only an initialised session is allocated. -/
  allocated_ready : (st.core.session x).allocated = true → (st.resources x).Ready
  /-- It is not sent from before. -/
  dormant : Dormant (st.core.session x)
  /-- Only for an initialised session a receive is outstanding, -/
  receives_ready : st.receives x = true → (st.resources x).Ready
  /-- or processed. -/
  recv_ready : st.recv.session = some x → (st.resources x).Ready
  /-- In front of `AddSession` nothing has happened. -/
  fresh : st.added x = false →
    st.resources x = .new ∧ (st.core.session x).connected = false ∧ x ∉ st.core.sessions
  /-- In `ProcessConnect` the session has been added. -/
  served_added : st.accept.session = some x → st.added x = true
  /-- What it has there. -/
  expected : st.accept.session = some x → ∀ r, st.accept.expected = some r → st.resources x = r
  /-- At first it is not connected. -/
  unconnected : st.accept = .processConnect x → (st.core.session x).connected = false
  /-- A session that is not initialised is connected only as long as `RegisterRecv` has not
  tested it, and is removed when it is disconnected. -/
  unready : ¬ (st.resources x).Ready → st.added x = true → st.accept ≠ .processConnect x →
    ((st.core.session x).connected = true ∧ st.accept.session = some x ∧
        st.accept.initialising = true) ∨
      ((st.core.session x).connected = false ∧
        (x ∉ st.core.sessions ∨ st.releasing x = true))

/-- The invariant. -/
structure Inv (st : State S T) : Prop where
  /-- Of every session. -/
  session : ∀ x, SessionInv st x
  /-- The calls were made for initialised sessions, which stay so. -/
  calls_ready : ∀ call ∈ st.calls, call.resources.Ready ∧ (st.resources call.session).Ready
  /-- The set has no session twice. -/
  nodup : st.core.sessions.Nodup

variable {st st' : State S T} {x y : S}

omit [LinearOrder S] [DecidableEq T] in
/-- A session that is not initialised is not allocated. -/
theorem SessionInv.unallocated (inv : SessionInv st x) (h : ¬ (st.resources x).Ready) :
    (st.core.session x).allocated = false := by
  by_contra hallocated
  exact h (inv.allocated_ready (by simpa using hallocated))

omit [LinearOrder S] [DecidableEq T] in
/-- A session the step is not about, or whose initialisation it does not touch. -/
theorem SessionInv.frame (inv : SessionInv st y)
    (hallocated : (st'.core.session y).allocated = (st.core.session y).allocated)
    (hdormant : Dormant (st.core.session y) → Dormant (st'.core.session y))
    (hconnected : ¬ (st.resources y).Ready →
      (st'.core.session y).connected = (st.core.session y).connected)
    (hsessions : y ∈ st'.core.sessions → y ∈ st.core.sessions)
    (hresources : st'.resources y = st.resources y) (hadded : st'.added y = st.added y)
    (hreceives : st'.receives y = true → st.receives y = true ∨ (st.resources y).Ready)
    (hrecv : st'.recv.session = some y → st.recv.session = some y ∨ (st.resources y).Ready)
    (hreleasing : st.releasing y = true → st'.releasing y = true ∨ y ∉ st'.core.sessions)
    (haccept : st'.accept = st.accept ∨
      st.accept.session ≠ some y ∧ st'.accept.session ≠ some y) : SessionInv st' y := by
  have hconnect : ∀ z, st.accept = .processConnect z → st.accept.session = some z := by
    rintro z h
    rw [h]
    rfl
  have hconnect' : ∀ z, st'.accept = .processConnect z → st'.accept.session = some z := by
    rintro z h
    rw [h]
    rfl
  constructor
  · rw [hallocated, hresources]
    exact inv.allocated_ready
  · exact hdormant inv.dormant
  · rw [hresources]
    exact fun h => (hreceives h).elim inv.receives_ready id
  · rw [hresources]
    exact fun h => (hrecv h).elim inv.recv_ready id
  · rw [hadded, hresources]
    intro h
    obtain ⟨hnew, hfalse, hmem⟩ := inv.fresh h
    refine ⟨hnew, ?_, mt hsessions hmem⟩
    rw [hconnected (by rw [hnew]; decide)]
    exact hfalse
  · rw [hadded]
    rcases haccept with h | ⟨-, h⟩
    · rw [h]
      exact inv.served_added
    · exact fun hs => (h hs).elim
  · rw [hresources]
    rcases haccept with h | ⟨-, h⟩
    · rw [h]
      exact inv.expected
    · exact fun hs => (h hs).elim
  · rcases haccept with h | ⟨-, h⟩
    · intro hs
      rw [h] at hs
      have hnew := inv.expected (hconnect y hs) .new (by rw [hs]; rfl)
      rw [hconnected (by rw [hnew]; decide)]
      exact inv.unconnected hs
    · exact fun hs => (h (hconnect' y hs)).elim
  · rw [hresources, hadded]
    intro hunready hin hne
    rw [hconnected hunready]
    have hgone : ((st.core.session y).connected = false ∧
        (y ∉ st.core.sessions ∨ st.releasing y = true)) →
        ((st.core.session y).connected = false ∧
          (y ∉ st'.core.sessions ∨ st'.releasing y = true)) := by
      rintro ⟨hfalse, hout | hreleases⟩
      · exact ⟨hfalse, .inl (mt hsessions hout)⟩
      · exact ⟨hfalse, (hreleasing hreleases).symm⟩
    rcases haccept with h | ⟨hold, -⟩
    · rw [h] at hne ⊢
      exact (inv.unready hunready hin hne).imp_right hgone
    · rcases inv.unready hunready hin fun hs => hold (hconnect y hs) with ⟨-, hserved, -⟩ | hrest
      · exact (hold hserved).elim
      · exact .inr (hgone hrest)

omit [LinearOrder S] [DecidableEq T] in
/-- What the core thread leaves of a session is enough. -/
theorem SessionInv.connected_eq (inv : SessionInv st y)
    (hkept : Kept (st.core.session y) (st'.core.session y)) (h : ¬ (st.resources y).Ready) :
    (st'.core.session y).connected = (st.core.session y).connected :=
  hkept.connected_eq inv.dormant (inv.unallocated h)

omit [LinearOrder S] [DecidableEq T] in
/-- The session the accept thread works on. -/
theorem SessionInv.served (inv : SessionInv st x) (hserved : st.accept.session = some x)
    (hadded : st'.added x = st.added x) (hrecv : st'.recv = st.recv)
    (hreceives : st'.receives x = true → st.receives x = true ∨ (st'.resources x).Ready)
    (hready : (st.resources x).Ready → (st'.resources x).Ready)
    (hallocated : (st'.core.session x).allocated = true → (st'.resources x).Ready)
    (hdormant : Dormant (st'.core.session x))
    (hexpected : st'.accept.session = some x → ∀ r, st'.accept.expected = some r →
      st'.resources x = r) (hconnect : st'.accept ≠ .processConnect x)
    (hunready : ¬ (st'.resources x).Ready →
      ((st'.core.session x).connected = true ∧ st'.accept.session = some x ∧
          st'.accept.initialising = true) ∨
        ((st'.core.session x).connected = false ∧
          (x ∉ st'.core.sessions ∨ st'.releasing x = true))) : SessionInv st' x := by
  have hin := inv.served_added hserved
  rw [← hadded] at hin
  refine ⟨hallocated, hdormant, fun h => (hreceives h).elim (hready ∘ inv.receives_ready) id, ?_,
    fun h => ?_, fun _ => hin, hexpected, fun h => (hconnect h).elim,
    fun h _ _ => hunready h⟩
  · rw [hrecv]
    exact hready ∘ inv.recv_ready
  · rw [hin] at h
    cases h

omit [LinearOrder S] [DecidableEq T] in
/-- At the start. -/
theorem inv_init (memory : ℤ → UInt8) : Inv (init memory : State S T) := by
  refine ⟨fun x => ⟨nofun, fun _ => ⟨rfl, rfl⟩, nofun, nofun, fun _ => ⟨rfl, rfl, nofun⟩, nofun,
    nofun, nofun, fun _ => nofun⟩, nofun, List.nodup_nil⟩

omit [LinearOrder S] [DecidableEq T] in
/-- What the core thread and the threads that send leave. -/
theorem inv_kept (inv : Inv st) {core : Core S T} (kept : CoreKept st.core core)
    {calls : List (Call S)} (hcalls : ∀ call ∈ calls, call.resources.Ready ∧
      (st.resources call.session).Ready) : Inv { st with core := core, calls := calls } := by
  refine ⟨fun y => ?_, hcalls, kept.sublist.nodup inv.nodup⟩
  exact (inv.session y).frame (kept.session y).allocated_eq (kept.session y).dormant
    ((inv.session y).connected_eq (kept.session y)) (fun h => kept.sublist.subset h) rfl rfl
    .inl .inl .inl (.inl rfl)

/-- A session that `RIOSend` is called for is allocated. -/
theorem allocated_of_rioSend {s s' : Session T} {a : RioSend.Action T} {request : Request}
    (hdormant : Dormant s) (h : RioSend.step s a = some s') (hr : rioSend s a = some request) :
    s.allocated = true := by
  by_contra hfalse
  obtain ⟨hpc, -⟩ := hdormant (by simpa using hfalse)
  cases a with
  | post outcome => simp only [RioSend.step, hpc, reduceCtorEq] at h
  | commit accepted => simp only [rioSend, hpc, reduceCtorEq] at hr
  | _ => cases hr

/-- `RIOSend` is called for initialised sessions only. -/
theorem rioSends_ready (inv : Inv st) {a : RioCore.Action S T} {core : Core S T}
    (h : RioCore.step st.core a = some core) {call : Call S} (hcall : call ∈ st.rioSends a) :
    call.resources.Ready ∧ (st.resources call.session).Ready := by
  cases a with
  | inside b linger =>
    simp only [State.rioSends] at hcall
    simp only [RioCore.step] at h
    split at hcall
    · rename_i x hpc
      rw [hpc] at h
      dsimp only at h
      split at h
      · obtain ⟨session, hsession, -⟩ := act_cases h
        obtain ⟨request, hrequest, rfl⟩ := List.mem_map.mp hcall
        have hready := (inv.session x).allocated_ready (allocated_of_rioSend
          (inv.session x).dormant hsession (Option.mem_toList.mp hrequest))
        exact ⟨hready, hready⟩
      · cases h
    · cases hcall
  | _ => cases hcall

/-- `AddSession`. -/
theorem inv_addSession (inv : Inv st) (h : step st (.addSession x) = some st') : Inv st' := by
  simp only [step] at h
  split at h
  · rename_i hguard
    obtain ⟨houtside, hadded⟩ := hguard
    obtain ⟨core, hcore, rfl⟩ := Option.map_eq_some_iff.mp h
    simp only [RioCore.step] at hcore
    split at hcore <;> cases hcore
    obtain ⟨hnew, hconnected, hmem⟩ := (inv.session x).fresh hadded
    have hnotReady : ¬ (st.resources x).Ready := by
      rw [hnew]
      decide
    have hsessions : (st.core.addSession x).sessions =
        st.core.sessions.orderedInsert (· ≤ ·) x := if_neg hmem
    refine ⟨fun y => ?_, inv.calls_ready, ?_⟩
    · by_cases hy : y = x
      · subst hy
        refine ⟨(inv.session y).allocated_ready, (inv.session y).dormant,
          (inv.session y).receives_ready, (inv.session y).recv_ready, fun h => ?_,
          fun _ => Function.update_self .., fun _ r hr => ?_, fun _ => hconnected,
          fun _ _ hne => (hne rfl).elim⟩
        · dsimp only at h
          rw [Function.update_self] at h
          cases h
        · cases hr
          exact hnew
      · refine (inv.session y).frame rfl id (fun _ => rfl) ?_ rfl (Function.update_of_ne hy ..)
          .inl .inl .inl (.inr ⟨?_, ?_⟩)
        · rw [hsessions, List.mem_orderedInsert]
          exact fun h => h.resolve_left hy
        · simp [houtside, AcceptPc.session]
        · exact fun h => hy (Option.some.inj h).symm
    · rw [hsessions]
      exact (List.perm_orderedInsert _ _ _).nodup_iff.mpr (List.nodup_cons.mpr ⟨hmem, inv.nodup⟩)
  · cases h

/-- `Disconnect` in another thread. -/
theorem inv_disconnect (inv : Inv st) {linger : Bool}
    (hok : Guarded st (.disconnect x linger))
    (h : step st (.disconnect x linger) = some st') : Inv st' := by
  cases h
  refine ⟨fun y => ?_, inv.calls_ready, inv.nodup⟩
  have hx := inv.session x
  by_cases hy : y = x
  · subst hy
    have hsession : ∀ session : Session T, (st.setSession y session).core.session y = session :=
      fun session => Function.update_self ..
    refine ⟨?_, ?_, hx.receives_ready, hx.recv_ready, fun hfresh => ?_, hx.served_added,
      hx.expected, fun _ => ?_, fun hunready hin hne => .inr ⟨?_, ?_⟩⟩
    · show ((st.setSession y _).core.session y).allocated = true → _
      rw [hsession]
      exact hx.allocated_ready
    · show Dormant ((st.setSession y _).core.session y)
      rw [hsession]
      exact hx.dormant
    · obtain ⟨hnew, -, hmem⟩ := hx.fresh hfresh
      refine ⟨hnew, ?_, hmem⟩
      show ((st.setSession y _).core.session y).connected = false
      rw [hsession]
      rfl
    · show ((st.setSession y _).core.session y).connected = false
      rw [hsession]
      rfl
    · show ((st.setSession y _).core.session y).connected = false
      rw [hsession]
      rfl
    · dsimp only
      rw [Function.update_self]
      rcases hx.unready hunready hin hne with ⟨hconnected, -, -⟩ | ⟨-, hout | hreleases⟩
      · -- this call has disconnected it, and `SetLinger` succeeds
        rw [(hok hconnected).resolve_left hunready, hconnected]
        exact .inr (by simp)
      · exact .inl hout
      · rw [hreleases]
        exact .inr rfl
  · have hsession : (st.setSession x (st.core.session x).disconnect).core.session y =
        st.core.session y := Function.update_of_ne hy ..
    refine (inv.session y).frame ?_ ?_ (fun _ => ?_) id rfl rfl .inl .inl (fun hreleases => .inl ?_)
      (.inl rfl)
    · exact congrArg Session.allocated hsession
    · exact fun hdormant => (congrArg Dormant hsession).mpr hdormant
    · exact congrArg Session.connected hsession
    · exact (Function.update_of_ne hy ..).trans hreleases

/-- Its `ReleaseSession`. -/
theorem inv_release (inv : Inv st) (h : step st (.release x) = some st') : Inv st' := by
  simp only [step] at h
  split at h
  · obtain ⟨core, hcore, rfl⟩ := Option.map_eq_some_iff.mp h
    obtain ⟨-, rfl⟩ := releaseSession_eq_some hcore
    refine ⟨fun y => ?_, inv.calls_ready, inv.nodup.erase x⟩
    refine (inv.session y).frame rfl id (fun _ => rfl) (fun h => List.mem_of_mem_erase h) rfl rfl
      .inl .inl (fun hreleases => ?_) (.inl rfl)
    by_cases hy : y = x
    · subst hy
      exact .inr inv.nodup.not_mem_erase
    · exact .inl ((Function.update_of_ne hy ..).trans hreleases)
  · cases h

/-- A receive is dequeued. -/
theorem inv_processRecv (inv : Inv st) (h : step st (.processRecv x) = some st') : Inv st' := by
  simp only [step] at h
  split at h <;> cases h
  rename_i hguard
  refine ⟨fun y => ?_, inv.calls_ready, inv.nodup⟩
  refine (inv.session y).frame rfl id (fun _ => rfl) id rfl rfl (fun hreceives => .inl ?_)
    (fun hrecv => .inr ?_) .inl (.inl rfl)
  · by_cases hy : y = x
    · subst hy
      dsimp only at hreceives
      rw [Function.update_self] at hreceives
      cases hreceives
    · exact (Function.update_of_ne hy ..).symm.trans hreceives
  · cases hrecv
    exact (inv.session x).receives_ready hguard.2.2

omit [LinearOrder S] [DecidableEq T] in
/-- A step of the accept thread works on its session alone. -/
theorem inv_served (inv : Inv st) (hserved : st.accept.session = some x)
    (hsession : ∀ y, y ≠ x → st'.core.session y = st.core.session y)
    (hresources : ∀ y, y ≠ x → st'.resources y = st.resources y)
    (hsessions : st'.core.sessions.Sublist st.core.sessions) (hadded : st'.added = st.added)
    (hrecv : st'.recv = st.recv) (hreceives : ∀ y, y ≠ x → st'.receives y = st.receives y)
    (hreleasing : st'.releasing = st.releasing)
    (haccept : ∀ y, st'.accept.session = some y → y = x)
    (hready : (st.resources x).Ready → (st'.resources x).Ready)
    (hcalls : ∀ call ∈ st'.calls, call ∈ st.calls ∨
      call.resources.Ready ∧ (st'.resources call.session).Ready)
    (hx : SessionInv st' x) : Inv st' := by
  have hkeeps : ∀ y, (st.resources y).Ready → (st'.resources y).Ready := fun y h => by
    by_cases hy : y = x
    · subst hy
      exact hready h
    · rw [hresources y hy]
      exact h
  refine ⟨fun y => ?_, fun call hcall => ?_, hsessions.nodup inv.nodup⟩
  · by_cases hy : y = x
    · subst hy
      exact hx
    · refine (inv.session y).frame (by rw [hsession y hy]) (by rw [hsession y hy]; exact id)
        (fun _ => by rw [hsession y hy]) (fun h => hsessions.subset h) (hresources y hy)
        (by rw [hadded]) (fun h => .inl ?_) (fun h => .inl ?_) (fun h => .inl ?_) (.inr ⟨?_, ?_⟩)
      · rw [← hreceives y hy]
        exact h
      · rw [← hrecv]
        exact h
      · rw [hreleasing]
        exact h
      · rw [hserved]
        exact fun h => hy (Option.some.inj h).symm
      · exact fun h => hy (haccept y h)
  · rcases hcalls call hcall with hold | hnew
    · obtain ⟨hthen, hnow⟩ := inv.calls_ready call hold
      exact ⟨hthen, hkeeps _ hnow⟩
    · exact hnew

omit [DecidableEq T] in
/-- One session is changed. -/
theorem setSession_self (st : State S T) (x : S) (session : Session T) :
    (st.setSession x session).core.session x = session := Function.update_self ..

omit [DecidableEq T] in
/-- The others are not. -/
theorem setSession_of_ne (st : State S T) (session : Session T) (h : y ≠ x) :
    (st.setSession x session).core.session y = st.core.session y := Function.update_of_ne h ..

omit [DecidableEq T] in
/-- A call of `InitSession` is answered. -/
theorem inv_initialised (inv : Inv st) {resources : Resources} {text : String}
    {next : AcceptPc S} {answer : Bool} (hserved : st.accept.session = some x)
    (hinitialising : st.accept.initialising = true) (hunready : ¬ (st.resources x).Ready)
    (hnext : next.session = some x) (hnextInitialising : next.initialising = true)
    (hexpected : answer = true → ∀ r, next.expected = some r → resources = r) :
    Inv (st.initialised x resources text next answer) := by
  have hx := inv.session x
  have hconnect : ∀ accept : AcceptPc S, accept.initialising = true →
      accept ≠ .processConnect x := by
    rintro _ h rfl
    cases h
  have hcases := hx.unready hunready (hx.served_added hserved) (hconnect _ hinitialising)
  have hallocated := hx.unallocated hunready
  have hself : Function.update st.resources x resources x = resources := Function.update_self ..
  have hothers : ∀ y, y ≠ x → Function.update st.resources x resources y = st.resources y :=
    fun y hy => Function.update_of_ne hy ..
  cases answer with
  | true =>
    refine inv_served inv hserved (fun _ _ => rfl) hothers (List.Sublist.refl _) rfl rfl
      (fun _ _ => rfl) rfl (fun y hy => ?_) (fun h => (hunready h).elim) (fun _ => .inl) ?_
    · exact Option.some.inj (hy.symm.trans hnext)
    · refine hx.served hserved rfl rfl .inl (fun h => (hunready h).elim) (fun h => ?_) hx.dormant
        (fun _ r hr => ?_) (hconnect _ hnextInitialising) (fun _ => ?_)
      · cases hallocated.symm.trans h
      · exact hself.trans (hexpected rfl r hr)
      · exact hcases.imp_left fun h => ⟨h.1, hnext, hnextInitialising⟩
  | false =>
    have hsession := setSession_self (st.setResources x resources) x
      ((st.core.session x).handleError text)
    refine inv_served inv hserved (fun y hy => Function.update_of_ne hy ..) hothers
      (List.Sublist.refl _) rfl rfl (fun _ _ => rfl) rfl (fun y hy => ?_)
      (fun h => (hunready h).elim) (fun _ => .inl) ?_
    · exact (Option.some.inj hy).symm
    · refine hx.served hserved rfl rfl .inl (fun h => (hunready h).elim) (fun h => ?_) ?_
        (fun _ => nofun) nofun (fun _ => ?_)
      · have hstill := (congrArg Session.allocated hsession).symm.trans h
        cases hallocated.symm.trans hstill
      · exact (congrArg Dormant hsession).mpr hx.dormant
      · have hflag := congrArg Session.connected hsession
        exact hcases.imp (fun h => ⟨hflag.trans h.1, rfl, rfl⟩) fun h => ⟨hflag.trans h.1, h.2⟩

omit [LinearOrder S] [DecidableEq T] in
/-- A step of the accept thread that moves on alone. -/
theorem inv_moved (inv : Inv st) (hserved : st.accept.session = some x) {accept : AcceptPc S}
    (haccept : ∀ y, accept.session = some y → y = x)
    (hexpected : accept.session = some x → ∀ r, accept.expected = some r → st.resources x = r)
    (hconnect : accept ≠ .processConnect x)
    (hunready : ¬ (st.resources x).Ready →
      ((st.core.session x).connected = true ∧ accept.session = some x ∧
          accept.initialising = true) ∨
        ((st.core.session x).connected = false ∧
          (x ∉ st.core.sessions ∨ st.releasing x = true))) : Inv { st with accept := accept } := by
  have hx := inv.session x
  exact inv_served inv hserved (fun _ _ => rfl) (fun _ _ => rfl) (List.Sublist.refl _) rfl rfl
    (fun _ _ => rfl) rfl haccept id (fun _ => .inl)
    (hx.served hserved rfl rfl .inl id hx.allocated_ready hx.dormant hexpected hconnect hunready)

omit [LinearOrder S] [DecidableEq T] in
/-- Behind the test of `RegisterRecv` the session is initialised. -/
theorem SessionInv.ready_of_expected (inv : SessionInv st x) (hserved : st.accept.session = some x)
    (h : st.accept.expected = some ⟨true, .valid, .valid, .valid⟩) : (st.resources x).Ready :=
  inv.expected hserved _ h

omit [DecidableEq T] in
/-- `RIOReceive` for a session that is initialised, by the accept thread or the core thread. -/
theorem inv_rioReceive (inv : Inv st) (hready : (st.resources x).Ready) (answer : Bool) :
    Inv (st.rioReceive x answer) := by
  have hcalls : ∀ call ∈ st.calls ++ [⟨.receive, x, st.resources x⟩],
      call.resources.Ready ∧ (st.resources call.session).Ready := by
    intro call hcall
    rcases List.mem_append.mp hcall with hold | hnew
    · exact inv.calls_ready call hold
    · rw [List.mem_singleton.mp hnew]
      exact ⟨hready, hready⟩
  cases answer with
  | true =>
    refine ⟨fun y => ?_, hcalls, inv.nodup⟩
    refine (inv.session y).frame rfl id (fun _ => rfl) id rfl rfl (fun hreceives => ?_) .inl .inl
      (.inl rfl)
    by_cases hy : y = x
    · subst hy
      exact .inr hready
    · exact .inl ((Function.update_of_ne hy ..).symm.trans hreceives)
  | false =>
    have kept : CoreKept st.core
        (st.core.setSession x ((st.core.session x).handleError "RioReceive")) :=
      ⟨List.Sublist.refl _, kept_setSession (.of_eq rfl rfl rfl rfl)⟩
    exact inv_kept inv kept hcalls

omit [LinearOrder S] [DecidableEq T] in
/-- The accept thread is at a position of `ProcessConnect`. -/
theorem served_of_eq {accept : AcceptPc S} (haccept : st.accept = accept)
    (h : accept.session = some x) : st.accept.session = some x := by
  rw [haccept]
  exact h

omit [LinearOrder S] [DecidableEq T] in
/-- What the session has there. -/
theorem SessionInv.eq_of_eq {accept : AcceptPc S} {r : Resources} (inv : SessionInv st x)
    (haccept : st.accept = accept) (hsession : accept.session = some x)
    (hexpected : accept.expected = some r) : st.resources x = r :=
  inv.expected (served_of_eq haccept hsession) r (by rw [haccept]; exact hexpected)

omit [DecidableEq T] in
/-- `m_bConnected` is set. -/
theorem inv_processConnect (inv : Inv st) (haccept : st.accept = .processConnect x) :
    Inv { st.setSession x { st.core.session x with connected := true } with
      accept := .registerRecvBuffer x } := by
  have hserved := served_of_eq haccept rfl
  have hx := inv.session x
  have hnew := hx.eq_of_eq haccept rfl rfl
  have hunready : ¬ (st.resources x).Ready := by
    rw [hnew]
    decide
  have hsession := setSession_self st x { st.core.session x with connected := true }
  refine inv_served inv hserved (fun y hy => setSession_of_ne st _ hy) (fun _ _ => rfl)
    (List.Sublist.refl _) rfl rfl (fun _ _ => rfl) rfl (fun y hy => (Option.some.inj hy).symm) id
    (fun _ => .inl) (hx.served hserved rfl rfl .inl id (fun h => ?_) ?_ ?_ nofun ?_)
  · have hstill := (congrArg Session.allocated hsession).symm.trans h
    cases (hx.unallocated hunready).symm.trans hstill
  · exact (congrArg Dormant hsession).mpr hx.dormant
  · intro _ r hr
    cases hr
    exact hnew
  · exact fun _ => .inl ⟨congrArg Session.connected hsession, rfl, rfl⟩

omit [DecidableEq T] in
/-- A position of `InitSession`: the call turns what the session has into what is expected
at the next one, if it is answered. -/
theorem inv_initSession (inv : Inv st) {accept next : AcceptPc S} {now resources : Resources}
    {text : String} {answer : Bool} (haccept : st.accept = accept)
    (hsession : accept.session = some x) (hexpected : accept.expected = some now)
    (hinitialising : accept.initialising = true) (hnow : ¬ now.Ready)
    (hnext : next.session = some x) (hnextInitialising : next.initialising = true)
    (hanswered : answer = true → st.resources x = now → next.expected = some resources) :
    Inv (st.initialised x resources text next answer) := by
  have hhas := (inv.session x).eq_of_eq haccept hsession hexpected
  refine inv_initialised inv (served_of_eq haccept hsession) (by rw [haccept]; exact hinitialising)
    (by rw [hhas]; exact hnow) hnext hnextInitialising fun htrue r hr => ?_
  exact Option.some.inj ((hanswered htrue hhas).symm.trans hr)

omit [DecidableEq T] in
/-- `m_bAllocated` is set. -/
theorem inv_allocated (inv : Inv st) (haccept : st.accept = .allocated x) :
    Inv { st.setSession x { st.core.session x with allocated := true } with
      accept := .onConnected x } := by
  have hserved := served_of_eq haccept rfl
  have hx := inv.session x
  have hready := hx.ready_of_expected hserved (by rw [haccept]; rfl)
  have hsession := setSession_self st x { st.core.session x with allocated := true }
  refine inv_served inv hserved (fun y hy => setSession_of_ne st _ hy) (fun _ _ => rfl)
    (List.Sublist.refl _) rfl rfl (fun _ _ => rfl) rfl (fun y hy => (Option.some.inj hy).symm) id
    (fun _ => .inl) (hx.served hserved rfl rfl .inl id (fun _ => hready) (fun h => ?_)
      (fun _ => nofun) nofun fun h => (h hready).elim)
  cases (congrArg Session.allocated hsession).symm.trans h

omit [LinearOrder S] [DecidableEq T] in
/-- `OnConnected` leaves the session as `InitSession` did. -/
theorem inv_onConnected (inv : Inv st) (haccept : st.accept = .onConnected x) :
    Inv { st with accept := .registerRecv x } := by
  have hserved := served_of_eq haccept rfl
  have hx := inv.session x
  refine inv_moved inv hserved (fun y hy => (Option.some.inj hy).symm) (fun _ => nofun) nofun
    fun hunready => ?_
  have hcases := hx.unready hunready (hx.served_added hserved) (by rw [haccept]; exact nofun)
  exact hcases.imp_left fun h => ⟨h.1, rfl, rfl⟩

omit [LinearOrder S] [DecidableEq T] in
/-- `RegisterRecv` tests `m_bConnected`, which the condition is about. -/
theorem inv_registerRecv (inv : Inv st) (haccept : st.accept = .registerRecv x)
    (hor : (st.resources x).Ready ∨ (st.core.session x).connected = false) :
    Inv { st with
      accept := if (st.core.session x).connected = true then .receive x else .outside } := by
  have hserved := served_of_eq haccept rfl
  have hx := inv.session x
  by_cases hconnected : (st.core.session x).connected = true
  · have hready := hor.resolve_right (by rw [hconnected]; exact nofun)
    rw [if_pos hconnected]
    exact inv_moved inv hserved (fun y hy => (Option.some.inj hy).symm)
      (fun _ r hr => by cases hr; exact hready) nofun fun h => (h hready).elim
  · rw [if_neg hconnected]
    refine inv_moved inv hserved (fun _ => nofun) nofun nofun fun hunready => .inr ?_
    have hcases := hx.unready hunready (hx.served_added hserved) (by rw [haccept]; exact nofun)
    exact hcases.resolve_left fun h => hconnected h.1

omit [DecidableEq T] in
/-- `RIOReceive` is called. -/
theorem inv_receive (inv : Inv st) {answer : Bool} (haccept : st.accept = .receive x) :
    Inv { st.rioReceive x answer with
      accept := if answer = true then .outside else .disconnect x } := by
  have hserved := served_of_eq haccept rfl
  have hready := (inv.session x).ready_of_expected hserved (by rw [haccept]; rfl)
  have hafter := inv_rioReceive inv hready answer
  have hsame : (st.rioReceive x answer).accept = st.accept := by cases answer <;> rfl
  have hstill : ((st.rioReceive x answer).resources x).Ready := by cases answer <;> exact hready
  refine inv_moved hafter (hsame.symm ▸ hserved) ?_ ?_ ?_ fun h => (h hstill).elim
  · cases answer
    · exact fun y hy => (Option.some.inj hy).symm
    · exact fun _ => nofun
  · cases answer
    · intro _ r hr
      cases hr
      exact hstill
    · exact nofun
  · cases answer <;> exact nofun

omit [DecidableEq T] in
/-- `Disconnect` after a receive that was refused. -/
theorem inv_acceptDisconnect (inv : Inv st) {answer : Bool}
    (haccept : st.accept = .disconnect x) :
    Inv { st.setSession x (st.core.session x).disconnect with
      accept := if (st.core.session x).connected = true ∧ answer = true then .release x
        else .outside } := by
  have hserved := served_of_eq haccept rfl
  have hx := inv.session x
  have hready := hx.ready_of_expected hserved (by rw [haccept]; rfl)
  have hsession := setSession_self st x (st.core.session x).disconnect
  refine inv_served inv hserved (fun y hy => setSession_of_ne st _ hy) (fun _ _ => rfl)
    (List.Sublist.refl _) rfl rfl (fun _ _ => rfl) rfl ?_ id (fun _ => .inl)
    (hx.served hserved rfl rfl .inl id (fun _ => hready) ?_ ?_ ?_ fun h => (h hready).elim)
  · intro y hy
    dsimp only at hy
    split at hy <;> cases hy
    rfl
  · exact (congrArg Dormant hsession).mpr hx.dormant
  · intro _ r hr
    dsimp only at hr
    split at hr <;> cases hr
    exact hready
  · dsimp only
    split <;> exact nofun

/-- Its `ReleaseSession`. -/
theorem inv_acceptRelease (inv : Inv st) (haccept : st.accept = .release x) {core : Core S T}
    (hcore : RioCore.step st.core (.releaseSession x) = some core) :
    Inv { st with core := core, accept := .outside } := by
  obtain ⟨-, rfl⟩ := releaseSession_eq_some hcore
  have hserved := served_of_eq haccept rfl
  have hx := inv.session x
  have hready := hx.ready_of_expected hserved (by rw [haccept]; rfl)
  exact inv_served inv hserved (fun _ _ => rfl) (fun _ _ => rfl) List.erase_sublist rfl rfl
    (fun _ _ => rfl) rfl (fun _ => nofun) id (fun _ => .inl)
    (hx.served hserved rfl rfl .inl id hx.allocated_ready hx.dormant nofun nofun
      fun h => (h hready).elim)

/-- A step of the accept thread. -/
theorem inv_accept (inv : Inv st) {answer : Bool} (hok : Guarded st (.accept answer))
    (h : step st (.accept answer) = some st') : Inv st' := by
  simp only [step, State.acceptStep] at h
  cases haccept : st.accept with
  | outside =>
    rw [haccept] at h
    cases h
  | processConnect x =>
    rw [haccept] at h
    cases h
    exact inv_processConnect inv haccept
  | registerRecvBuffer x =>
    rw [haccept] at h
    cases h
    refine inv_initSession inv haccept rfl rfl rfl (by decide) rfl rfl ?_
    rintro rfl hnow
    rw [hnow]
    rfl
  | registerSendBuffer x =>
    rw [haccept] at h
    cases h
    refine inv_initSession inv haccept rfl rfl rfl (by decide) rfl rfl ?_
    rintro rfl hnow
    rw [hnow]
    rfl
  | createRequestQueue x =>
    rw [haccept] at h
    cases h
    refine inv_initSession inv haccept rfl rfl rfl (by decide) rfl rfl ?_
    rintro rfl hnow
    rw [hnow]
    rfl
  | allocated x =>
    rw [haccept] at h
    cases h
    exact inv_allocated inv haccept
  | onConnected x =>
    rw [haccept] at h
    cases h
    exact inv_onConnected inv haccept
  | registerRecv x =>
    rw [haccept] at h
    cases h
    exact inv_registerRecv inv haccept (hok x (by rw [haccept]; rfl))
  | receive x =>
    rw [haccept] at h
    cases h
    exact inv_receive inv haccept
  | disconnect x =>
    rw [haccept] at h
    cases h
    exact inv_acceptDisconnect inv haccept
  | release x =>
    rw [haccept] at h
    obtain ⟨core, hcore, rfl⟩ := Option.map_eq_some_iff.mp h
    exact inv_acceptRelease inv haccept hcore

/-- A step of the core thread in `ProcessRecv`. -/
theorem inv_recv (inv : Inv st) {answer : Bool} (h : step st (.recv answer) = some st') :
    Inv st' := by
  have hmoved : ∀ {st : State S T} (recv : RecvPc S), Inv st →
      (∀ y, recv.session = some y → (st.resources y).Ready) → Inv { st with recv := recv } := by
    intro st recv inv hrecv
    exact ⟨fun y => (inv.session y).frame rfl id (fun _ => rfl) id rfl rfl .inl
      (fun h => .inr (hrecv y h)) .inl (.inl rfl), inv.calls_ready, inv.nodup⟩
  simp only [step, State.recvStep] at h
  cases hrecv : st.recv with
  | outside =>
    rw [hrecv] at h
    cases h
  | process x =>
    rw [hrecv] at h
    cases h
    have hready := (inv.session x).recv_ready (by rw [hrecv]; rfl)
    refine hmoved _ inv fun y hy => ?_
    split at hy
    · cases hy
      exact hready
    · split at hy <;> cases hy
      exact hready
  | receive x =>
    rw [hrecv] at h
    cases h
    have hready := (inv.session x).recv_ready (by rw [hrecv]; rfl)
    refine hmoved _ (inv_rioReceive inv hready answer) fun y hy => ?_
    cases answer <;> cases hy
    exact hready
  | disconnect x =>
    rw [hrecv] at h
    obtain ⟨core, hcore, rfl⟩ := Option.map_eq_some_iff.mp h
    obtain ⟨session, hsession, rfl⟩ := act_cases hcore
    cases hsession
    have hready := (inv.session x).recv_ready (by rw [hrecv]; rfl)
    refine ⟨fun y => ?_, inv.calls_ready, inv.nodup⟩
    by_cases hy : y = x
    · subst hy
      have hsession := setSession_self st y (st.core.session y).disconnect
      exact (inv.session y).frame ((congrArg Session.allocated hsession).trans rfl)
        (congrArg Dormant hsession).mpr (fun h => (h hready).elim) id rfl rfl .inl nofun .inl
        (.inl rfl)
    · have hsession := setSession_of_ne st (st.core.session x).disconnect hy
      exact (inv.session y).frame (congrArg Session.allocated hsession)
        (congrArg Dormant hsession).mpr (fun _ => congrArg Session.connected hsession) id rfl rfl
        .inl nofun .inl (.inl rfl)

/-- Every step that meets the condition keeps the invariant. -/
theorem inv_step (inv : Inv st) {a : Action S T} (hok : Guarded st a)
    (h : step st a = some st') : Inv st' := by
  cases a with
  | addSession x => exact inv_addSession inv h
  | accept answer => exact inv_accept inv hok h
  | core a =>
    simp only [step] at h
    split at h
    · rename_i hguard
      obtain ⟨core, hcore, rfl⟩ := Option.map_eq_some_iff.mp h
      refine inv_kept inv (coreKept_step hguard.1 hcore) fun call hcall => ?_
      rcases List.mem_append.mp hcall with hold | hnew
      · exact inv.calls_ready call hold
      · exact rioSends_ready inv hcore hnew
    · cases h
  | processRecv x => exact inv_processRecv inv h
  | recv answer => exact inv_recv inv h
  | sendCheck x t packet =>
    obtain ⟨core, hcore, rfl⟩ := Option.map_eq_some_iff.mp h
    exact inv_kept inv (coreKept_other hcore (by simp) (by simp)) inv.calls_ready
  | sendPush x t =>
    obtain ⟨core, hcore, rfl⟩ := Option.map_eq_some_iff.mp h
    exact inv_kept inv (coreKept_other hcore (by simp) (by simp)) inv.calls_ready
  | disconnect x linger => exact inv_disconnect inv hok h
  | release x => exact inv_release inv h

/-- The invariant is more than what is promised. -/
theorem Inv.initialisedOnly (inv : Inv st) : InitialisedOnly st := by
  have hgone : ∀ x, (st.resources x).Failed → st.accept.session ≠ some x →
      (st.core.session x).connected = false ∧
        (x ∉ st.core.sessions ∨ st.releasing x = true) := by
    intro x hfailed hserved
    have hadded : st.added x = true := by
      by_contra hfresh
      have hnew := ((inv.session x).fresh (by simpa using hfresh)).1
      rw [hnew] at hfailed
      exact absurd hfailed (by decide)
    have hconnect : st.accept ≠ .processConnect x := fun h => hserved (by rw [h]; rfl)
    refine ((inv.session x).unready hfailed.not_ready hadded hconnect).resolve_left fun h => ?_
    exact hserved h.2.1
  refine ⟨fun call h => (inv.calls_ready call h).1, fun x hfailed call hcall => ?_,
    fun x hfailed hserved => (hgone x hfailed hserved).1, fun x hfailed hserved hreleasing => ?_,
    fun x hreleasing hlock => ?_⟩
  · rintro rfl
    exact hfailed.not_ready (inv.calls_ready call hcall).2
  · refine (hgone x hfailed hserved).2.resolve_right fun h => ?_
    rw [hreleasing] at h
    cases h
  · refine ⟨{ st with
      core := st.core.releaseSession x
      releasing := Function.update st.releasing x false }, ?_, inv.nodup.not_mem_erase⟩
    simp only [step, hreleasing, if_true, RioCore.step, hlock, Option.map_some]

end Invariant

/-- In every run in which `RegisterRecv` of the accept thread finds each session initialised
or disconnected, and in which `SetLinger` succeeds in a `Disconnect` of a session that is
not initialised, every state is as promised. -/
theorem initialisedOnly_of_stepsMeet {S T : Type*} [LinearOrder S] [DecidableEq T]
    {memory : ℤ → UInt8} {actions : List (Action S T)}
    (hmeet : StepsMeet step Guarded (init memory) actions) :
    Always step InitialisedOnly (init memory) actions :=
  always_of_stepsMeet (fun _ _ _ inv hok h => inv_step inv hok h)
    (fun _ inv => inv.initialisedOnly) (inv_init memory) hmeet

/-- Without the condition on `RegisterRecv`: a connected session that is not initialised is
received for in the next step but one. -/
theorem unready_received {S T : Type*} [LinearOrder S] [DecidableEq T] {st m st' : State S T}
    {x : S} {a b : Bool} (haccept : st.accept = .registerRecv x)
    (hconnected : (st.core.session x).connected = true) (hunready : ¬ (st.resources x).Ready)
    (hm : step st (.accept a) = some m) (h : step m (.accept b) = some st') :
    ¬ InitialisedOnly st' := by
  simp only [step, State.acceptStep, haccept, if_pos hconnected, Option.some.injEq] at hm
  cases hm
  cases h
  intro promised
  refine hunready (promised.calls_ready ⟨.receive, x, st.resources x⟩ ?_)
  cases b <;> exact List.mem_append_right _ List.mem_cons_self

/-- A session is initialised and sent from, and another one, whose receive buffer could not
be registered, is disconnected by `OnConnected`. -/
def twoSessions : List (Action ℕ Unit) :=
  [.addSession 0, .accept true, .accept true, .accept true, .accept true, .accept true,
    .accept true, .accept true, .accept true, .sendCheck 0 () [4, 0, 7, 0], .sendPush 0 (),
    .core .deferredSend, .core (.iterate 0), .core (.inside .dequeue true),
    .core (.inside .testLimit true), .core (.inside .dequeue true),
    .core (.inside (.post .ok) true), .core (.inside (.post .ok) true),
    .core (.inside (.stamp 30) true), .core (.inside (.commit true) true), .core .advance,
    .core (.iterate 0), .addSession 1, .accept true, .accept false, .disconnect 1 true,
    .accept true, .accept true, .release 1]

/-- Every state of the run is as promised, and three calls were made. -/
theorem twoSessions_initialisedOnly : ∃ st, run step (init fun _ => 0) twoSessions = some st ∧
    st.calls.length = 3 ∧ Always step InitialisedOnly (init fun _ => 0) twoSessions := by
  have h : ((run step (init fun _ => 0) twoSessions).any fun st => st.calls.length = 3) = true := by
    decide +kernel
  obtain ⟨st, hr, hcalls⟩ := (Option.any_eq_true _ _).mp h
  exact ⟨st, hr, of_decide_eq_true hcalls, initialisedOnly_of_stepsMeet (by decide +kernel)⟩

/-- The receive buffer of a session cannot be registered; `RIOReceive` is called all the
same and refused. -/
def failedInit : List (Action Unit Unit) :=
  [.addSession (), .accept true, .accept false, .accept true, .accept true, .accept false]

/-- A call was made for a session that has no request queue. -/
theorem failedInit_received : ∃ st, run step (init fun _ => 0) failedInit = some st ∧
    (st.resources ()).Failed ∧ ¬ InitialisedOnly st := by
  have h : ((run step (init fun _ => 0) failedInit).any fun st =>
      (st.resources ()).Failed ∧ st.calls.any fun call => call.session = ()) = true := by
    decide +kernel
  obtain ⟨st, hr, hview⟩ := (Option.any_eq_true _ _).mp h
  obtain ⟨hfailed, hcall⟩ := of_decide_eq_true hview
  obtain ⟨call, hmem, hsession⟩ := List.any_eq_true.mp hcall
  exact ⟨st, hr, hfailed, fun promised =>
    promised.failed_silent () hfailed call hmem (of_decide_eq_true hsession)⟩

end RioIocpServer.SessionInit
