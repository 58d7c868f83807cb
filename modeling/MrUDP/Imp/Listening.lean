import MrUDP.Imp.Overlapped

/-!
# Listening, and relocating

`mrudp/imp/Asio.cpp`.  A native socket listens by a chain of asynchronous receives.  Each of them
starts the next one when it completes, with an error or without, as long as the `SocketImp` runs and
the handle is open.

`SocketImp::relocate` closes all the native sockets, opens the socket itself at another address, and
has every connection take an overlapped socket anew.  A connection lets go of the old one before,
but the old one is only replaced if nobody holds it any more.  The handlers of the sends that were
cancelled are called meanwhile, so who holds it may change at any time.

## Main definitions

* `Imp.SocketImp.Hears`: a socket that is open listens.
* `Imp.SocketImp.relocate`: a relocation as one connection sees it.
* `Imp.SocketImp.Since`: what is so of the sockets since all of them were closed.
-/

namespace MrUDP
open Machine

namespace Imp
namespace SocketImp

variable {s : SocketImp} {h : Holder} {n : ℕ}

/-! ## Listening -/

/-- What is asked of the order of events: sockets are acquired while the `SocketImp` runs, and the
address is acquired and the `SocketImp` opened while it does not. -/
def Orderly (s : SocketImp) : ImpEvent → Prop
  | .openConnection _ _ _ | .onRemoteAddressChanged _ _ _ | .relocateConnection _ _ | .get _ _ =>
      s.running = true
  | .acquireAddress _ | .open => s.running = false
  | _ => True

instance (s : SocketImp) : DecidablePred s.Orderly
  | .openConnection _ _ _ | .onRemoteAddressChanged _ _ _ | .relocateConnection _ _ | .get _ _ =>
      inferInstanceAs (Decidable (s.running = true))
  | .acquireAddress _ | .open => inferInstanceAs (Decidable (s.running = false))
  | .clear _ | .destroyConnection _ | .send _ _ | .sent _ | .lock _ _ | .unlock _ | .complete _
  | .completeSocket | .close => .isTrue trivial

/-- A socket that is open listens, an overlapped one by exactly one chain of receives.  The socket
itself is opened again when it is relocated, and a chain from before may go on. -/
structure Hears (s : SocketImp) : Prop where
  once : ∀ n, (s.natives n).receives ≤ 1
  closed : s.running = false → ∀ {h n}, (h, n) ∈ s.held → (s.natives n).isOpen = false
  hears : s.running = true → ∀ {h n}, (h, n) ∈ s.held → (s.natives n).isOpen = true →
    (s.natives n).receives = 1
  socket : s.running = true → s.socket.isOpen = true → 1 ≤ s.socket.receives
  opened : s.socket.receives ≤ s.opened

theorem Hears.init : Hears {} where
  once _ := Nat.zero_le _
  closed _ := by rintro h n ⟨⟩
  hears _ := by rintro h n ⟨⟩
  socket h := by cases h
  opened := le_rfl

theorem Native.isOpen_doReceive (running : Bool) (native : Native) :
    (native.doReceive running).isOpen = native.isOpen := by
  rw [Native.doReceive]
  split <;> rfl

/-- Taking an entry out of the table changes nothing else. -/
theorem releaseOverlappedSocket_eq (s : SocketImp) (key : Address) :
    ∃ table, s.releaseOverlappedSocket key = { s with overlappedSockets := table } := by
  rw [releaseOverlappedSocket]
  split
  · split
    · exact ⟨_, rfl⟩
    · exact ⟨_, rfl⟩
  · exact ⟨_, rfl⟩

/-- What letting go leaves alone. -/
theorem release_frame (s : SocketImp) (h : Holder) :
    (s.release h).running = s.running ∧ (s.release h).socket = s.socket ∧
      (s.release h).opened = s.opened ∧ (s.release h).next = s.next ∧
      (∀ p ∈ (s.release h).held, p ∈ s.held) ∧
      ∀ n, ((s.release h).natives n).receives = (s.natives n).receives ∧
        (((s.release h).natives n).isOpen = true → (s.natives n).isOpen = true) := by
  rw [release]
  split
  · exact ⟨rfl, rfl, rfl, rfl, fun _ h => h, fun _ => ⟨rfl, fun h => h⟩⟩
  next n _ =>
    have hfilter : ∀ p ∈ s.held.filter fun p => p.1 ≠ h, p ∈ s.held :=
      fun p hp => (List.mem_filter.mp hp).1
    dsimp only
    split
    · obtain ⟨table, htable⟩ := releaseOverlappedSocket_eq
        { s with held := s.held.filter fun p => p.1 ≠ h } (s.natives n).overlapKey
      rw [htable]
      refine ⟨rfl, rfl, rfl, rfl, hfilter, fun m => ?_⟩
      dsimp only
      by_cases hm : m = n
      · subst hm
        rw [Function.update_self]
        exact ⟨rfl, fun h => by cases h⟩
      · rw [Function.update_of_ne hm]
        exact ⟨rfl, fun h => h⟩
    · exact ⟨rfl, rfl, rfl, rfl, hfilter, fun _ => ⟨rfl, fun h => h⟩⟩

theorem Hears.release (hh : s.Hears) (h : Holder) : (s.release h).Hears := by
  obtain ⟨hrunning, hsocket, hopened, -, hheld, hnatives⟩ := s.release_frame h
  refine ⟨fun n => ?_, fun hidle h' n hmem => ?_, fun hrun h' n hmem hopen => ?_, ?_, ?_⟩
  · rw [(hnatives n).1]
    exact hh.once n
  · rw [hrunning] at hidle
    have hclosed := hh.closed hidle (hheld _ hmem)
    rw [← Bool.not_eq_true] at hclosed ⊢
    exact fun hopen => hclosed ((hnatives n).2 hopen)
  · rw [hrunning] at hrun
    rw [(hnatives n).1]
    exact hh.hears hrun (hheld _ hmem) ((hnatives n).2 hopen)
  · rw [hrunning, hsocket]
    exact hh.socket
  · rw [hsocket, hopened]
    exact hh.opened

/-- A pointer is copied. -/
theorem Hears.copy (hh : s.Hears) {h' : Holder} (hheld : (h', n) ∈ s.held) (h : Holder) :
    Hears { s with held := (h, n) :: s.held } := by
  refine ⟨hh.once, fun hidle k m hmem => ?_, fun hrun k m hmem => ?_, hh.socket, hh.opened⟩
  · rcases List.mem_cons.mp hmem with heq | hmem
    · cases heq
      exact hh.closed hidle hheld
    · exact hh.closed hidle hmem
  · rcases List.mem_cons.mp hmem with heq | hmem
    · cases heq
      exact hh.hears hrun hheld
    · exact hh.hears hrun hmem

/-- What acquiring does while the `SocketImp` runs. -/
theorem Hears.acquire (hh : s.Hears) (hs : s.Sound) (hrunning : s.running = true) (h : Holder)
    (address : Address) (error : Bool) : (s.acquire h address error).Hears := by
  have hidle : ¬ s.running = false := by
    rw [hrunning]
    decide
  cases hlock : s.lock address with
  | some n =>
      obtain ⟨⟨h', hheld⟩, -⟩ := hs.lock_eq_some.mp hlock
      rw [acquire_of_lock hlock]
      exact hh.copy hheld h
  | none =>
      cases error with
      | true =>
          rw [hs.acquire_of_error hlock]
          exact { hh with }
      | false =>
          have hnew : (Native.doReceive s.running
              { overlapKey := address, isOpen := true }).receives = 1 := by
            rw [hrunning]
            rfl
          rw [acquire_of_new hlock]
          refine ⟨fun n => ?_, fun hrun => absurd hrun hidle, fun _ k m hmem hopen => ?_,
            hh.socket, hh.opened⟩
          · dsimp only
            by_cases hn : n = s.next
            · rw [hn, Function.update_self, hnew]
            · rw [Function.update_of_ne hn]
              exact hh.once n
          · dsimp only at hopen ⊢
            rcases List.mem_cons.mp hmem with heq | hmem
            · cases heq
              rw [Function.update_self, hnew]
            · have hm : m ≠ s.next := (hs.made hmem).ne
              rw [Function.update_of_ne hm] at hopen ⊢
              exact hh.hears hrunning hmem hopen

theorem Hears.reacquire (hh : s.Hears) (hs : s.Sound) (hrunning : s.running = true) (id : ℕ)
    (error : Bool) : (s.reacquireOverlappedSocket id error).Hears :=
  (hh.release _).acquire (hs.release _).1 ((s.release_frame _).1.trans hrunning) _ _ _

/-- Closing closes every overlapped socket somebody holds. -/
theorem Sound.isOpen_close (hs : s.Sound) (hrunning : s.running = true) (hheld : (h, n) ∈ s.held) :
    (s.close.natives n).isOpen = false := by
  rw [close, if_pos hrunning]
  dsimp only
  rw [if_pos (hs.lock_eq_some.mpr ⟨⟨h, hheld⟩, rfl⟩)]

theorem Hears.close (hh : s.Hears) (hs : s.Sound) : s.close.Hears := by
  by_cases hrunning : s.running = true
  · have hheld : s.close.held = s.held := by
      rw [SocketImp.close, if_pos hrunning]
    have hreceives : ∀ n, (s.close.natives n).receives = (s.natives n).receives := by
      intro n
      rw [SocketImp.close, if_pos hrunning]
      dsimp only
      split <;> rfl
    have hstopped : ¬ s.close.running = true := by
      rw [SocketImp.close, if_pos hrunning]
      exact Bool.false_ne_true
    refine ⟨fun n => ?_, fun _ h n hmem => ?_, fun hrun => absurd hrun hstopped,
      fun hrun => absurd hrun hstopped, ?_⟩
    · rw [hreceives]
      exact hh.once n
    · rw [hheld] at hmem
      exact hs.isOpen_close hrunning hmem
    · rw [SocketImp.close, if_pos hrunning]
      exact hh.opened
  · rwa [SocketImp.close, if_neg hrunning]

/-- A receive that completes starts the next one, as long as there is somebody to listen for. -/
theorem Hears.complete (hh : s.Hears) (n : ℕ) : (s.complete n).Hears := by
  rw [SocketImp.complete]
  split
  · exact hh
  next hpending =>
    have hone : (s.natives n).receives = 1 := by
      have := hh.once n
      omega
    refine ⟨fun m => ?_, fun hidle h m hmem => ?_, fun hrun h m hmem hopen => ?_, hh.socket,
      hh.opened⟩
    · dsimp only
      by_cases hm : m = n
      · subst hm
        rw [Function.update_self]
        split
        · dsimp only
          omega
        · rw [Native.doReceive]
          split
          · dsimp only
            omega
          · dsimp only
            omega
      · rw [Function.update_of_ne hm]
        exact hh.once m
    · dsimp only
      by_cases hm : m = n
      · subst hm
        have hclosed := hh.closed hidle hmem
        rw [Function.update_self]
        split
        · exact hclosed
        · rw [Native.isOpen_doReceive]
          exact hclosed
      · rw [Function.update_of_ne hm]
        exact hh.closed hidle hmem
    · dsimp only at hopen ⊢
      by_cases hm : m = n
      · subst hm
        have hlive : s.expired m = false := expired_eq_false.mpr ⟨h, hmem⟩
        rw [Function.update_self, hlive, if_neg Bool.false_ne_true] at hopen ⊢
        rw [Native.isOpen_doReceive] at hopen
        rw [Native.doReceive, if_pos ⟨hrun, hopen⟩]
        dsimp only
        omega
      · rw [Function.update_of_ne hm] at hopen ⊢
        exact hh.hears hrun hmem hopen

theorem Hears.completeSocket (hh : s.Hears) : s.completeSocket.Hears := by
  have hopened := hh.opened
  rw [SocketImp.completeSocket]
  split
  · exact hh
  · refine ⟨hh.once, hh.closed, hh.hears, fun hrun hopen => ?_, ?_⟩
    · dsimp only at hrun hopen ⊢
      rw [Native.isOpen_doReceive] at hopen
      rw [Native.doReceive, if_pos ⟨hrun, hopen⟩]
      exact Nat.le_add_left 1 _
    · dsimp only
      rw [Native.doReceive]
      split
      · dsimp only
        omega
      · dsimp only
        omega

/-- **Every event in order keeps the sockets listening.** -/
theorem Hears.step (hh : s.Hears) (hs : s.Sound) {event : ImpEvent} (horder : s.Orderly event) :
    (s.step event).Hears := by
  cases event with
  | openConnection id remoteAddress error =>
      rw [SocketImp.step]
      split
      · exact hh
      next hpointer =>
        rw [Bool.not_eq_true, Option.isSome_eq_false_iff, Option.isNone_iff_eq_none,
          pointer_eq_none] at hpointer
        have hremote : Hears { s with
            remoteAddress := Function.update s.remoteAddress id remoteAddress } :=
          { hh with }
        exact hremote.acquire (hs.setRemoteAddress hpointer remoteAddress) horder _ _ _
  | onRemoteAddressChanged id remoteAddress error =>
      have hrelease := hh.release (.connection id)
      obtain ⟨hsound, hnone⟩ := hs.release (.connection id)
      have hremote : Hears { s.release (.connection id) with
          remoteAddress :=
            Function.update (s.release (.connection id)).remoteAddress id remoteAddress } :=
        { hrelease with }
      rw [SocketImp.step, reacquireOverlappedSocket, release_remoteAddress,
        ← s.remoteAddress_release (.connection id)]
      exact hremote.acquire (hsound.setRemoteAddress hnone remoteAddress)
        ((s.release_frame _).1.trans horder) _ _ _
  | relocateConnection id error => exact hh.reacquire hs horder id error
  | clear | destroyConnection | sent | unlock => exact hh.release _
  | get id error =>
      rw [SocketImp.step]
      split
      · exact hh
      · exact hh.acquire hs horder _ _ _
  | send id connection =>
      rcases s.step_send id connection with hstep | ⟨n, -, hconnection, -, hstep⟩ <;> rw [hstep]
      · exact hh
      · exact hh.copy (hs.pointer_eq_some.mp hconnection) _
  | lock id n =>
      rcases s.step_lock id n with hstep | ⟨h, -, hheld, hstep⟩ <;> rw [hstep]
      · exact hh
      · exact hh.copy hheld _
  | complete n => exact hh.complete n
  | completeSocket => exact hh.completeSocket
  | close => exact hh.close hs
  | acquireAddress error =>
      have hidle : ¬ s.running = true := by
        rw [show s.running = false from horder]
        exact Bool.false_ne_true
      exact { hh with socket := fun hrun => absurd hrun hidle }
  | «open» =>
      have hopened := hh.opened
      refine ⟨hh.once, fun hidle => ?_, fun _ h n hmem hopen => ?_, fun _ hopen => ?_, ?_⟩
      · cases hidle
      · have hclosed := hh.closed horder hmem
        rw [show (s.natives n).isOpen = true from hopen] at hclosed
        cases hclosed
      · dsimp only [SocketImp.step] at hopen ⊢
        rw [Native.isOpen_doReceive] at hopen
        rw [Native.doReceive, if_pos ⟨rfl, hopen⟩]
        exact Nat.le_add_left 1 _
      · dsimp only [SocketImp.step]
        rw [Native.doReceive]
        split
        · exact Nat.succ_le_succ hopened
        · exact Nat.le_succ_of_le hopened

theorem hears_run {events : List ImpEvent} (horder : Along step Orderly {} events) :
    (Machine.run step {} events).Sound ∧ (Machine.run step {} events).Hears :=
  run_invariant (fun s => s.Sound ∧ s.Hears)
    (fun _ event h horder => ⟨h.1.step event, h.2.step h.1 horder⟩) ⟨Sound.init, Hears.init⟩ horder

/-- **An open socket is never deaf.**  When the events are in order and the `SocketImp` runs, the
socket itself, if it is open, has a receive under way, and no more than it was opened times; and
every open overlapped socket somebody holds has exactly one. -/
theorem never_deaf {events : List ImpEvent} (horder : Along step Orderly {} events)
    (hrunning : (Machine.run step {} events).running = true) :
    ((Machine.run step {} events).socket.isOpen = true →
        1 ≤ (Machine.run step {} events).socket.receives ∧
          (Machine.run step {} events).socket.receives ≤ (Machine.run step {} events).opened) ∧
      ∀ h n, (Machine.run step {} events).pointer h = some n →
        ((Machine.run step {} events).natives n).isOpen = true →
          ((Machine.run step {} events).natives n).receives = 1 := by
  obtain ⟨hs, hh⟩ := hears_run horder
  exact ⟨fun hopen => ⟨hh.socket hrunning hopen, hh.opened⟩,
    fun h n hpointer hopen => hh.hears hrunning (hs.pointer_eq_some.mp hpointer) hopen⟩

/-- Two connections to one address, and one to another; one of the first two is sending. -/
def threeConnections : List ImpEvent :=
  [.acquireAddress false, .open, .openConnection 0 7 false, .openConnection 1 7 false,
    .openConnection 2 8 false, .send 0 1]

theorem never_deaf_threeConnections :
    Along step Orderly {} threeConnections ∧
      (Machine.run step {} threeConnections).running = true ∧
      (Machine.run step {} threeConnections).socket.isOpen = true ∧
      1 ≤ (Machine.run step {} threeConnections).socket.receives ∧
      (Machine.run step {} threeConnections).pointer (.send 0) = some 0 ∧
      ((Machine.run step {} threeConnections).natives 0).receives = 1 := by
  have horder : Along step Orderly {} threeConnections := by decide +kernel
  have hpointer : (Machine.run step {} threeConnections).pointer (.send 0) = some 0 := by
    decide +kernel
  obtain ⟨hsocket, hnatives⟩ := never_deaf horder rfl
  exact ⟨horder, rfl, rfl, (hsocket rfl).1, hpointer, hnatives _ _ hpointer rfl⟩

/-! ## Relocating -/

/-- Nothing is closed, and the connection does nothing. -/
def Spares (id : ℕ) : ImpEvent → Prop
  | .openConnection id' _ _ | .onRemoteAddressChanged id' _ _ | .relocateConnection id' _
  | .clear id' | .get id' _ | .destroyConnection id' => id' ≠ id
  | .close => False
  | _ => True

instance (id : ℕ) : DecidablePred (Spares id)
  | .openConnection _ _ _ | .onRemoteAddressChanged _ _ _ | .relocateConnection _ _
  | .clear _ | .get _ _ | .destroyConnection _ => inferInstanceAs (Decidable (_ ≠ _))
  | .close => .isFalse not_false
  | .send _ _ | .sent _ | .lock _ _ | .unlock _ | .complete _ | .completeSocket
  | .acquireAddress _ | .open => .isTrue trivial

/-- `SocketImp::relocate`, as a connection sees it when nothing fails: everything is closed, and
when it is its turn it lets go of its socket and takes one.  The rest of the relocation, and whatever
else happens, happens before, between and after. -/
def relocate (id : ℕ) (before between after : List ImpEvent) : List ImpEvent :=
  .close :: before ++ .clear id :: between ++ .get id false :: after

/-! ### The connection is left alone -/

theorem pointer_cons_of_ne (s : SocketImp) {h h' : Holder} (hne : h' ≠ h) (n : ℕ) :
    pointer { s with held := (h', n) :: s.held } h = s.pointer h := by
  simp [pointer, hne]

theorem pointer_release_of_ne (s : SocketImp) {h h' : Holder} (hne : h' ≠ h) :
    (s.release h').pointer h = s.pointer h := by
  have hfilter : (s.held.filter fun p => p.1 ≠ h').find? (fun p => p.1 = h) =
      s.held.find? fun p => p.1 = h := by
    rw [List.find?_filter]
    congr 1
    funext p
    by_cases hp : p.1 = h
    · simp [hp, Ne.symm hne]
    · simp [hp]
  rw [release]
  split
  · rfl
  · dsimp only
    split
    · obtain ⟨table, htable⟩ := releaseOverlappedSocket_eq
        { s with held := s.held.filter fun p => p.1 ≠ h' } _
      rw [htable, pointer, hfilter]
      rfl
    · rw [pointer, hfilter]
      rfl

theorem acquire_frame (s : SocketImp) (h : Holder) (address : Address) (error : Bool) :
    (s.acquire h address error).remoteAddress = s.remoteAddress ∧
      ∀ h', h ≠ h' → (s.acquire h address error).pointer h' = s.pointer h' := by
  rw [acquire, getOverlappedSocket]
  cases s.lock address with
  | some n => exact ⟨rfl, fun h' hne => s.pointer_cons_of_ne hne n⟩
  | none =>
      cases error with
      | true =>
          dsimp only
          rw [if_pos rfl]
          dsimp only
          obtain ⟨table, htable⟩ := releaseOverlappedSocket_eq { s with
            overlappedSockets := Function.update s.overlappedSockets address
              (some ((s.overlappedSockets address).getD none))
            next := s.next + 1 } address
          rw [htable]
          exact ⟨rfl, fun _ _ => rfl⟩
      | false => exact ⟨rfl, fun h' hne => s.pointer_cons_of_ne hne _⟩

theorem reacquire_frame (s : SocketImp) {id id' : ℕ} (hne : id' ≠ id) (error : Bool) :
    (s.reacquireOverlappedSocket id' error).pointer (.connection id) =
        s.pointer (.connection id) ∧
      (s.reacquireOverlappedSocket id' error).remoteAddress = s.remoteAddress := by
  have hholder : Holder.connection id' ≠ .connection id := fun h => hne (Holder.connection.inj h)
  rw [reacquireOverlappedSocket, (acquire_frame _ _ _ _).1, (acquire_frame _ _ _ _).2 _ hholder,
    pointer_release_of_ne _ hholder, remoteAddress_release]
  exact ⟨rfl, rfl⟩

/-- **What spares a connection** leaves it its pointer and its remote address. -/
theorem step_of_spares {id : ℕ} {event : ImpEvent} (h : Spares id event) (s : SocketImp) :
    (s.step event).pointer (.connection id) = s.pointer (.connection id) ∧
      (s.step event).remoteAddress id = s.remoteAddress id := by
  have hrelease : ∀ h' : Holder, h' ≠ .connection id →
      (s.release h').pointer (.connection id) = s.pointer (.connection id) ∧
        (s.release h').remoteAddress id = s.remoteAddress id :=
    fun h' hne => ⟨s.pointer_release_of_ne hne, by rw [remoteAddress_release]⟩
  have hother : ∀ {id'}, id' ≠ id → Holder.connection id' ≠ .connection id :=
    fun hne heq => hne (Holder.connection.inj heq)
  cases event with
  | openConnection id' remoteAddress error =>
      rw [step]
      split
      · exact ⟨rfl, rfl⟩
      · dsimp only
        rw [(acquire_frame _ _ _ _).1, (acquire_frame _ _ _ _).2 _ (hother h)]
        exact ⟨rfl, Function.update_of_ne (Ne.symm h) _ _⟩
  | onRemoteAddressChanged id' remoteAddress error =>
      rw [step, (reacquire_frame _ h error).1, (reacquire_frame _ h error).2]
      exact ⟨rfl, Function.update_of_ne (Ne.symm h) _ _⟩
  | relocateConnection id' error =>
      rw [step, (reacquire_frame s h error).1, (reacquire_frame s h error).2]
      exact ⟨rfl, rfl⟩
  | clear id' | destroyConnection id' => exact hrelease _ (hother h)
  | get id' error =>
      rw [step]
      split
      · exact ⟨rfl, rfl⟩
      · rw [(acquire_frame _ _ _ _).1, (acquire_frame _ _ _ _).2 _ (hother h)]
        exact ⟨rfl, rfl⟩
  | send id' connection =>
      rcases s.step_send id' connection with hstep | ⟨n, -, -, -, hstep⟩ <;> rw [hstep]
      · exact ⟨rfl, rfl⟩
      · exact ⟨s.pointer_cons_of_ne (by simp) n, rfl⟩
  | lock id' n =>
      rcases s.step_lock id' n with hstep | ⟨h, -, -, hstep⟩ <;> rw [hstep]
      · exact ⟨rfl, rfl⟩
      · exact ⟨s.pointer_cons_of_ne (by simp) n, rfl⟩
  | sent | unlock => exact hrelease _ (by simp)
  | complete n =>
      rw [step, complete]
      split <;> exact ⟨rfl, rfl⟩
  | completeSocket =>
      rw [step, completeSocket]
      split <;> exact ⟨rfl, rfl⟩
  | close => exact h.elim
  | acquireAddress | «open» => exact ⟨rfl, rfl⟩

/-! ### The sockets -/

/-- What is so of the sockets somebody holds since those of `s` were closed: those that are open were
made since, and the others are in the table of `s`. -/
structure Since (s t : SocketImp) : Prop where
  next : s.next ≤ t.next
  isOpen : ∀ {h m}, (h, m) ∈ t.held → ((t.natives m).isOpen = true ↔ s.next ≤ m)
  old : ∀ {h m}, (h, m) ∈ t.held → m < s.next →
    s.overlappedSockets (t.natives m).overlapKey = some (some m)

variable {t : SocketImp}

theorem Sound.since_close (hs : s.Sound) (hrunning : s.running = true) : Since s s.close := by
  have hheld : s.close.held = s.held ∧ s.close.next = s.next := by
    rw [close, if_pos hrunning]
    exact ⟨rfl, rfl⟩
  refine ⟨hheld.2.ge, fun hmem => ?_, fun hmem _ => ?_⟩
  · rw [hheld.1] at hmem
    rw [hs.isOpen_close hrunning hmem]
    exact iff_of_false Bool.false_ne_true (not_le.mpr (hs.made hmem))
  · rw [hheld.1] at hmem
    rw [overlapKey_close]
    exact hs.listed hmem

/-- The sockets that are left are the same. -/
theorem Since.congr (h : Since s t) {t' : SocketImp} (hnext : t'.next = t.next)
    (hheld : ∀ {h m}, (h, m) ∈ t'.held → (∃ h', (h', m) ∈ t.held) ∧
      (t'.natives m).isOpen = (t.natives m).isOpen ∧
      (t'.natives m).overlapKey = (t.natives m).overlapKey) : Since s t' where
  next := h.next.trans hnext.ge
  isOpen hmem := by
    obtain ⟨⟨h', hmem⟩, hopen, -⟩ := hheld hmem
    rw [hopen]
    exact h.isOpen hmem
  old hmem hlt := by
    obtain ⟨⟨h', hmem⟩, -, hkey⟩ := hheld hmem
    rw [hkey]
    exact h.old hmem hlt

theorem Since.copy (h : Since s t) {k k' : Holder} {m : ℕ} (hheld : (k', m) ∈ t.held) :
    Since s { t with held := (k, m) :: t.held } := by
  refine h.congr rfl fun {h' m'} hmem => ⟨?_, rfl, rfl⟩
  rcases List.mem_cons.mp hmem with heq | hmem
  · cases heq
    exact ⟨k', hheld⟩
  · exact ⟨_, hmem⟩

theorem Since.release (h : Since s t) (ht : t.Sound) (k : Holder) : Since s (t.release k) := by
  cases hpointer : t.pointer k with
  | none => rwa [release_of_none hpointer]
  | some n =>
      have hheld := ht.pointer_eq_some.mp hpointer
      rcases t.sole_or_shared k n with hsole | ⟨k', hother, hne⟩
      · rw [ht.release_of_sole hheld hsole]
        refine h.congr rfl fun {h' m} hmem => ?_
        obtain ⟨hmem, hne⟩ := mem_filter_ne.mp hmem
        have hm : m ≠ n := fun heq => hne (hsole h' (heq ▸ hmem))
        dsimp only
        rw [Function.update_of_ne hm]
        exact ⟨⟨h', hmem⟩, rfl, rfl⟩
      · rw [ht.release_of_shared hheld hother hne]
        exact h.congr rfl fun {h' m} hmem => ⟨⟨h', (mem_filter_ne.mp hmem).1⟩, rfl, rfl⟩

theorem Since.acquire (h : Since s t) (ht : t.Sound) (k : Holder) (address : Address)
    (error : Bool) : Since s (t.acquire k address error) := by
  cases hlock : t.lock address with
  | some n =>
      obtain ⟨⟨k', hheld⟩, -⟩ := ht.lock_eq_some.mp hlock
      rw [acquire_of_lock hlock]
      exact h.copy hheld
  | none =>
      cases error with
      | true =>
          rw [ht.acquire_of_error hlock]
          exact ⟨h.next.trans (Nat.le_succ _), h.isOpen, h.old⟩
      | false =>
          have hnext := h.next
          rw [acquire_of_new hlock]
          refine ⟨hnext.trans (Nat.le_succ _), fun {k' m} hmem => ?_, fun {k' m} hmem hlt => ?_⟩
          · dsimp only
            rcases List.mem_cons.mp hmem with heq | hmem
            · cases heq
              rw [Function.update_self, Native.isOpen_doReceive]
              exact iff_of_true rfl hnext
            · rw [Function.update_of_ne (ht.made hmem).ne]
              exact h.isOpen hmem
          · dsimp only
            rcases List.mem_cons.mp hmem with heq | hmem
            · cases heq
              omega
            · rw [Function.update_of_ne (ht.made hmem).ne]
              exact h.old hmem hlt

theorem Since.setRemoteAddress (h : Since s t) (remoteAddress : ℕ → Address) :
    Since s { t with remoteAddress := remoteAddress } := { h with }

theorem isOpen_complete (s : SocketImp) (m n : ℕ) :
    ((s.complete m).natives n).isOpen = (s.natives n).isOpen := by
  rw [complete]
  split
  · rfl
  · dsimp only
    by_cases hn : n = m
    · subst hn
      rw [Function.update_self]
      split
      · rfl
      · rw [Native.isOpen_doReceive]
    · rw [Function.update_of_ne hn]

/-- **Unless the sockets are closed again**, it stays so. -/
theorem Since.step (h : Since s t) (ht : t.Sound) {event : ImpEvent} (hclose : event ≠ .close) :
    Since s (t.step event) := by
  cases event with
  | openConnection id remoteAddress error =>
      rw [SocketImp.step]
      split
      · exact h
      next hpointer =>
        rw [Bool.not_eq_true, Option.isSome_eq_false_iff, Option.isNone_iff_eq_none,
          pointer_eq_none] at hpointer
        exact (h.setRemoteAddress _).acquire (ht.setRemoteAddress hpointer remoteAddress) _ _ _
  | onRemoteAddressChanged id remoteAddress error =>
      obtain ⟨hsound, hnone⟩ := ht.release (.connection id)
      rw [SocketImp.step, reacquireOverlappedSocket, release_remoteAddress,
        ← t.remoteAddress_release (.connection id)]
      exact ((h.release ht _).setRemoteAddress _).acquire
        (hsound.setRemoteAddress hnone remoteAddress) _ _ _
  | relocateConnection id error => exact (h.release ht _).acquire (ht.release _).1 _ _ _
  | clear | destroyConnection | sent | unlock => exact h.release ht _
  | get id error =>
      rw [SocketImp.step]
      split
      · exact h
      · exact h.acquire ht _ _ _
  | send id connection =>
      rcases t.step_send id connection with hstep | ⟨n, -, hconnection, -, hstep⟩ <;> rw [hstep]
      · exact h
      · exact h.copy (ht.pointer_eq_some.mp hconnection)
  | lock id n =>
      rcases t.step_lock id n with hstep | ⟨k, -, hheld, hstep⟩ <;> rw [hstep]
      · exact h
      · exact h.copy hheld
  | complete n =>
      refine h.congr ?_ fun {k m} hmem => ⟨⟨k, ?_⟩, t.isOpen_complete n m, t.overlapKey_complete n m⟩
      · rw [SocketImp.step, complete]
        split <;> rfl
      · rw [SocketImp.step, complete] at hmem
        split at hmem <;> exact hmem
  | completeSocket =>
      rw [SocketImp.step, completeSocket]
      split <;> exact { h with }
  | close => exact absurd rfl hclose
  | acquireAddress | «open» => exact { h with }

theorem Since.run (h : Since s t) (ht : t.Sound) {id : ℕ} (events : List ImpEvent)
    (hspares : ∀ event ∈ events, Spares id event) :
    Since s (Machine.run SocketImp.step t events) ∧
      (Machine.run SocketImp.step t events).pointer (.connection id) =
        t.pointer (.connection id) ∧
      (Machine.run SocketImp.step t events).remoteAddress id = t.remoteAddress id := by
  induction events generalizing t with
  | nil => exact ⟨h, rfl, rfl⟩
  | cons event events ih =>
      have hspare := hspares event List.mem_cons_self
      obtain ⟨hpointer, haddress⟩ := step_of_spares hspare t
      have hclose : event ≠ .close := by
        rintro rfl
        exact hspare
      obtain ⟨hsince, hpointers, haddresses⟩ := ih (h.step ht hclose) (ht.step event)
        fun event' hmem => hspares event' (List.mem_cons_of_mem _ hmem)
      exact ⟨hsince, hpointers.trans hpointer, haddresses.trans haddress⟩

/-- A connection that takes a socket is given an open one exactly if nobody holds the one that was
closed. -/
theorem Since.get (h : Since s t) (hs : s.Sound) (ht : t.Sound) {id : ℕ}
    (hheld : (.connection id, n) ∈ s.held) (hnone : t.pointer (.connection id) = none)
    (haddress : t.remoteAddress id = s.remoteAddress id) :
    ∃ n', (t.step (.get id false)).pointer (.connection id) = some n' ∧
      (s.next ≤ n' ↔ ∀ h, t.pointer h ≠ some n) := by
  have hlisted := hs.listed hheld
  rw [hs.address hheld, ← haddress] at hlisted
  -- The socket that was closed is the only one of its address that is not new.
  have hold : ∀ {k m}, (k, m) ∈ t.held → m < s.next →
      ((t.natives m).overlapKey = t.remoteAddress id ↔ m = n) := by
    intro k m hmem hlt
    have hentry := h.old hmem hlt
    constructor
    · intro hkey
      rw [hkey, hlisted] at hentry
      exact (Option.some.inj (Option.some.inj hentry)).symm
    · rintro rfl
      obtain ⟨k', m', heq, -, hkey⟩ := hs.entry hentry
      cases heq
      rw [← hkey, hs.address hheld, haddress]
  have hn := hs.made hheld
  rw [SocketImp.step, hnone, Option.isSome_none, if_neg Bool.false_ne_true]
  cases hlock : t.lock (t.remoteAddress id) with
  | none =>
      rw [acquire_of_new hlock]
      refine ⟨t.next, by simp [pointer], iff_of_true h.next fun k hk => ?_⟩
      have hmem := ht.pointer_eq_some.mp hk
      rw [ht.lock_eq_some.mpr ⟨⟨k, hmem⟩, (hold hmem hn).mpr rfl⟩] at hlock
      cases hlock
  | some m =>
      obtain ⟨⟨k, hmem⟩, hkey⟩ := ht.lock_eq_some.mp hlock
      rw [acquire_of_lock hlock]
      refine ⟨m, by simp [pointer], fun hle k' hk' => ?_, fun hgone => ?_⟩
      · have hmem' := ht.pointer_eq_some.mp hk'
        rw [ht.lock_eq_some.mpr ⟨⟨k', hmem'⟩, (hold hmem' hn).mpr rfl⟩] at hlock
        cases hlock
        omega
      · by_contra hlt
        have heq := (hold hmem (not_le.mp hlt)).mp hkey
        exact hgone k (ht.pointer_eq_some.mpr (heq ▸ hmem))

/-- **Who shares its socket is cut off by a relocation.**  When a running socket is relocated, a
connection has an open socket afterwards exactly if nobody else held the old one any more when it
took a new one: not another connection with the same remote address, nor the handler of a send that
was cancelled.  Otherwise the old one is still in the table, and it is given that again, closed.
Whatever else happens meanwhile makes no difference. -/
theorem isOpen_relocate_iff (events : List ImpEvent)
    (hrunning : (Machine.run step {} events).running = true) {id : ℕ}
    (hpointer : (Machine.run step {} events).pointer (.connection id) = some n)
    {before between after : List ImpEvent}
    (hspares : ∀ event ∈ before ++ between ++ after, Spares id event) :
    ∃ n', (Machine.run step {} (events ++ relocate id before between after)).pointer
        (.connection id) = some n' ∧
      (((Machine.run step {} (events ++ relocate id before between after)).natives n').isOpen =
          true ↔
        ∀ h, (Machine.run step {} (events ++ (.close :: before ++ .clear id :: between))).pointer
          h ≠ some n) := by
  have hs := Sound.init.run events
  rw [run_append, run_append, relocate, run_append]
  generalize Machine.run step {} events = s at hs hrunning hpointer
  have hheld := hs.pointer_eq_some.mp hpointer
  -- The connection clears its pointer, some time after everything was closed.
  have hcleared : ∃ t : SocketImp, Since s t ∧ t.Sound ∧ t.pointer (.connection id) = none ∧
      t.remoteAddress id = s.remoteAddress id ∧
      Machine.run step s (.close :: before ++ .clear id :: between) =
        Machine.run step t between := by
    obtain ⟨hsince, -, haddress⟩ := (hs.since_close hrunning).run (hs.step .close) before
      fun event hmem => hspares event (by simp [hmem])
    have hsound := (hs.step .close).run before
    refine ⟨_, hsince.release hsound (.connection id), (hsound.release _).1,
      pointer_eq_none.mpr (hsound.release _).2, ?_, by rw [run_append]; rfl⟩
    rw [remoteAddress_release, haddress]
    show s.close.remoteAddress id = s.remoteAddress id
    rw [close, if_pos hrunning]
  obtain ⟨t, hsince, ht, hnone, haddress, hrun⟩ := hcleared
  obtain ⟨hsince₁, hpointer₁, haddress₁⟩ := hsince.run ht between
    fun event hmem => hspares event (by simp [hmem])
  have ht₁ := ht.run between
  rw [hrun, run_cons]
  generalize Machine.run step t between = t₁ at *
  -- It takes a socket, and keeps it.
  obtain ⟨n', hn', hiff⟩ := hsince₁.get hs ht₁ hheld (hpointer₁.trans hnone)
    (haddress₁.trans haddress)
  have ht₂ := ht₁.step (.get id false)
  obtain ⟨hsince₂, hpointer₂, -⟩ :=
    (hsince₁.step ht₁ (by simp : ImpEvent.get id false ≠ .close)).run ht₂ after
      fun event hmem => hspares event (by simp [hmem])
  refine ⟨n', hpointer₂.trans hn', ?_⟩
  rw [hsince₂.isOpen ((ht₂.run after).pointer_eq_some.mp (hpointer₂.trans hn')), hiff]

/-- The connections to address 7 are cut off, the one to address 8 is not: not even if it was
sending, when the handler of that send is called just in time. -/
theorem isOpen_relocate_threeConnections :
    let opening : List ImpEvent := [.acquireAddress false, .open]
    let visit (id : ℕ) : List ImpEvent := [.clear id, .get id false]
    let s := Machine.run step {} (threeConnections ++ relocate 0 opening [] (visit 1 ++ visit 2))
    let s' := Machine.run step {}
      ((threeConnections ++ [.send 1 2]) ++ relocate 2 (opening ++ visit 0 ++ visit 1) [.sent 1] [])
    (∃ n', s.pointer (.connection 0) = some n' ∧ ¬ (s.natives n').isOpen = true) ∧
      ∃ n', s'.pointer (.connection 2) = some n' ∧ (s'.natives n').isOpen = true := by
  intro opening visit s s'
  constructor
  · obtain ⟨n', hpointer, hiff⟩ := @isOpen_relocate_iff 0 threeConnections rfl 0
      (by decide +kernel) opening [] (visit 1 ++ visit 2) (by decide +kernel)
    refine ⟨n', hpointer, fun hopen => hiff.mp hopen (.connection 1) (by decide +kernel)⟩
  · obtain ⟨n', hpointer, hiff⟩ := @isOpen_relocate_iff 1 (threeConnections ++ [.send 1 2]) rfl 2
      (by decide +kernel) (opening ++ visit 0 ++ visit 1) [.sent 1] [] (by decide +kernel)
    refine ⟨n', hpointer, hiff.mpr fun h hh => ?_⟩
    rw [(Sound.init.run _).pointer_eq_some] at hh
    have hgone : ∀ p ∈ (Machine.run step {} ((threeConnections ++ [.send 1 2]) ++
        (.close :: (opening ++ visit 0 ++ visit 1) ++ .clear 2 :: [.sent 1]))).held, p.2 ≠ 1 := by
      decide +kernel
    exact hgone _ hh rfl

end SocketImp
end Imp
end MrUDP
