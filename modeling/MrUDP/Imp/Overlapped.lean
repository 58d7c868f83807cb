import MrUDP.Lib.Run
import MrUDP.Types

/-!
# Overlapped sockets

`mrudp/imp/Asio.cpp`, with `overlapped_io`.  Every connection sends and receives through a native
socket that is connected to its remote address.  The socket is shared with whoever has the same
remote address: `SocketImp::overlappedSockets` is a table of weak pointers, and the strong ones are
held by the connections, and by the handlers of the sends under way.  Who lets go of a native socket
last destroys it, and its destructor takes the entry out of the table.

The handlers may be called at any time, and a weak pointer may be locked for any time.  Every method
is atomic, but the two halves of `ConnectionImp::reacquireOverlappedSocket` are events of their own
as well: whatever happens between them happens there.

## Main definitions

* `Imp.SocketImp`, `Imp.SocketImp.step`: the socket as a machine.
* `Imp.SocketImp.Sound`: the table and the strong pointers fit together.
-/

namespace MrUDP
open Machine

namespace Imp

/-- Who holds a strong pointer to an overlapped socket. -/
inductive Holder
  /-- `ConnectionImp::overlappedSocket`. -/
  | connection (id : ℕ)
  /-- The handler of an asynchronous send that `SocketImp::doSend` has started, and those of the
  sends it starts in turn. -/
  | send (id : ℕ)
  /-- Whoever has locked a weak pointer: the handler of a receive, as long as it runs. -/
  | handler (id : ℕ)
  deriving DecidableEq, Repr

/-- `SocketNative`: the address an overlapped socket is connected to, whether its handle is open,
and the asynchronous receives that have not completed. -/
structure Native where
  overlapKey : Address := 0
  isOpen : Bool := false
  receives : ℕ := 0
  deriving DecidableEq, Repr

/-- `SocketNative::receive`, which `SocketImp::doReceive` calls if it is running. -/
def Native.doReceive (running : Bool) (native : Native) : Native :=
  if running = true ∧ native.isOpen = true then { native with receives := native.receives + 1 }
  else native

/-- `SocketImp`, and the strong pointers to its overlapped sockets.

`next` is the number of overlapped sockets made so far.  An entry of the table is a weak pointer,
which may be empty.  `opened` counts the calls of `SocketImp::open`. -/
structure SocketImp where
  running : Bool := false
  socket : Native := {}
  natives : ℕ → Native := fun _ => {}
  next : ℕ := 0
  overlappedSockets : Address → Option (Option ℕ) := fun _ => none
  held : List (Holder × ℕ) := []
  remoteAddress : ℕ → Address := fun _ => 0
  opened : ℕ := 0

/-- What can happen. -/
inductive ImpEvent
  /-- `ConnectionImp::open`, which may fail to make a socket. -/
  | openConnection (id : ℕ) (remoteAddress : Address) (error : Bool)
  /-- `Connection::onRemoteAddressChanged`. -/
  | onRemoteAddressChanged (id : ℕ) (remoteAddress : Address) (error : Bool)
  /-- `ConnectionImp::relocate`. -/
  | relocateConnection (id : ℕ) (error : Bool)
  /-- `ConnectionImp::reacquireOverlappedSocket` clears its pointer. -/
  | clear (id : ℕ)
  /-- It takes an overlapped socket then. -/
  | get (id : ℕ) (error : Bool)
  /-- The `ConnectionImp` is destroyed. -/
  | destroyConnection (id : ℕ)
  /-- A send for a connection is handed to its socket. -/
  | send (id connection : ℕ)
  /-- Its handler is called, and destroyed. -/
  | sent (id : ℕ)
  /-- A weak pointer to an overlapped socket is locked. -/
  | lock (id native : ℕ)
  /-- The pointer that was made of it goes out of scope. -/
  | unlock (id : ℕ)
  /-- A receive of an overlapped socket completes. -/
  | complete (native : ℕ)
  /-- A receive of the socket itself completes. -/
  | completeSocket
  /-- `SocketImp::close`. -/
  | close
  /-- `SocketImp::acquireAddress`, which may fail to open the handle. -/
  | acquireAddress (error : Bool)
  /-- `SocketImp::open`. -/
  | open

namespace SocketImp

/-! ## Pointers -/

/-- Nobody holds the native socket. -/
def expired (s : SocketImp) (n : ℕ) : Bool := !s.held.any fun p => p.2 = n

/-- The pointer of a holder. -/
def pointer (s : SocketImp) (h : Holder) : Option ℕ :=
  (s.held.find? fun p => p.1 = h).map Prod.snd

/-- What `strong` makes of the entry of an address. -/
def lock (s : SocketImp) (address : Address) : Option ℕ :=
  (s.overlappedSockets address).join.filter fun n => !s.expired n

/-- `SocketImp::releaseOverlappedSocket`. -/
def releaseOverlappedSocket (s : SocketImp) (key : Address) : SocketImp :=
  if (s.overlappedSockets key).isSome then
    if s.lock key = none then
      { s with overlappedSockets := Function.update s.overlappedSockets key none }
    else s
  else s

/-- A holder lets go of its socket.  If it was the last one, the socket is destroyed. -/
def release (s : SocketImp) (h : Holder) : SocketImp :=
  match s.pointer h with
  | none => s
  | some n =>
      let s := { s with held := s.held.filter fun p => p.1 ≠ h }
      if s.expired n then
        let s := s.releaseOverlappedSocket (s.natives n).overlapKey
        { s with natives := Function.update s.natives n { s.natives n with isOpen := false } }
      else s

/-- `SocketImp::getOverlappedSocket`.  The entry of the address is there as soon as it is looked up.
A new socket that cannot be opened, bound or connected is destroyed, after the lock is released. -/
def getOverlappedSocket (s : SocketImp) (remoteAddress : Address) (error : Bool) :
    Option ℕ × SocketImp :=
  match s.lock remoteAddress with
  | some n => (some n, s)
  | none =>
      let entry := (s.overlappedSockets remoteAddress).getD none
      let s := { s with
        overlappedSockets := Function.update s.overlappedSockets remoteAddress (some entry) }
      let n := s.next
      let s := { s with next := n + 1 }
      if error then (none, s.releaseOverlappedSocket remoteAddress)
      else
        let native : Native := { overlapKey := remoteAddress, isOpen := true }
        (some n, { s with
          overlappedSockets := Function.update s.overlappedSockets remoteAddress (some (some n))
          natives := Function.update s.natives n (native.doReceive s.running) })

/-- A holder that holds nothing is given the overlapped socket of an address. -/
def acquire (s : SocketImp) (h : Holder) (remoteAddress : Address) (error : Bool) : SocketImp :=
  match s.getOverlappedSocket remoteAddress error with
  | (none, s) => s
  | (some n, s) => { s with held := (h, n) :: s.held }

/-- `ConnectionImp::reacquireOverlappedSocket`. -/
def reacquireOverlappedSocket (s : SocketImp) (id : ℕ) (error : Bool) : SocketImp :=
  (s.release (.connection id)).acquire (.connection id) (s.remoteAddress id) error

/-! ## Events -/

/-- `SocketImp::close`. -/
def close (s : SocketImp) : SocketImp :=
  if s.running then
    { s with
      running := false
      socket := { s.socket with isOpen := false }
      natives := fun n =>
        if s.lock (s.natives n).overlapKey = some n then { s.natives n with isOpen := false }
        else s.natives n }
  else s

/-- The handler of a receive of an overlapped socket. -/
def complete (s : SocketImp) (n : ℕ) : SocketImp :=
  if (s.natives n).receives = 0 then s
  else
    let native := { s.natives n with receives := (s.natives n).receives - 1 }
    let native := if s.expired n then native else native.doReceive s.running
    { s with natives := Function.update s.natives n native }

/-- The handler of a receive of the socket itself, which lives as long as the `SocketImp`. -/
def completeSocket (s : SocketImp) : SocketImp :=
  if s.socket.receives = 0 then s
  else
    let socket := { s.socket with receives := s.socket.receives - 1 }
    { s with socket := socket.doReceive s.running }

/-- Something happens.  A `ConnectionImp` is opened when it is new, and an asynchronous send has a
handler of its own.  `SocketNative::send` starts nothing when its handle is closed. -/
def step (s : SocketImp) : ImpEvent → SocketImp
  | .openConnection id remoteAddress error =>
      if (s.pointer (.connection id)).isSome then s
      else
        let s := { s with remoteAddress := Function.update s.remoteAddress id remoteAddress }
        s.acquire (.connection id) remoteAddress error
  | .onRemoteAddressChanged id remoteAddress error =>
      let s := { s with remoteAddress := Function.update s.remoteAddress id remoteAddress }
      s.reacquireOverlappedSocket id error
  | .relocateConnection id error => s.reacquireOverlappedSocket id error
  | .clear id | .destroyConnection id => s.release (.connection id)
  | .get id error =>
      if (s.pointer (.connection id)).isSome then s
      else s.acquire (.connection id) (s.remoteAddress id) error
  | .send id connection =>
      if (s.pointer (.send id)).isSome then s
      else
        match s.pointer (.connection connection) with
        | none => s
        | some n =>
            if (s.natives n).isOpen then { s with held := (.send id, n) :: s.held } else s
  | .sent id => s.release (.send id)
  | .lock id n =>
      if (s.pointer (.handler id)).isSome || s.expired n then s
      else { s with held := (.handler id, n) :: s.held }
  | .unlock id => s.release (.handler id)
  | .complete n => s.complete n
  | .completeSocket => s.completeSocket
  | .close => s.close
  | .acquireAddress error => { s with socket := { s.socket with isOpen := !error } }
  | .open =>
      { s with
        running := true
        socket := s.socket.doReceive true
        opened := s.opened + 1 }

/-! ## Pointers and the table -/

variable {s : SocketImp} {h : Holder} {n : ℕ} {address : Address}

theorem expired_eq_false : s.expired n = false ↔ ∃ h, (h, n) ∈ s.held := by
  simp [expired]

theorem expired_eq_true : s.expired n = true ↔ ∀ h, (h, n) ∉ s.held := by
  rw [← Bool.not_eq_false, expired_eq_false, not_exists]

/-- The table and the strong pointers fit together: the entries are the overlapped sockets somebody
holds, each under the address it is connected to, which is the remote address of the connections
that hold it. -/
structure Sound (s : SocketImp) : Prop where
  nodup : (s.held.map Prod.fst).Nodup
  made : ∀ {h n}, (h, n) ∈ s.held → n < s.next
  listed : ∀ {h n}, (h, n) ∈ s.held → s.overlappedSockets (s.natives n).overlapKey = some (some n)
  entry : ∀ {address entry}, s.overlappedSockets address = some entry →
    ∃ h n, entry = some n ∧ (h, n) ∈ s.held ∧ (s.natives n).overlapKey = address
  address : ∀ {id n}, (.connection id, n) ∈ s.held →
    (s.natives n).overlapKey = s.remoteAddress id

theorem Sound.init : Sound {} where
  nodup := List.nodup_nil
  made h := by cases h
  listed h := by cases h
  entry h := by cases h
  address h := by cases h

/-- A holder has one pointer. -/
theorem Sound.pointer_eq_some (hs : s.Sound) : s.pointer h = some n ↔ (h, n) ∈ s.held := by
  rw [pointer, Option.map_eq_some_iff]
  constructor
  · rintro ⟨p, hfind, rfl⟩
    have hname := List.find?_some hfind
    have hmem := List.mem_of_find?_eq_some hfind
    rw [decide_eq_true_eq] at hname
    rwa [← hname]
  · intro hmem
    cases hfind : s.held.find? fun p => p.1 = h with
    | none =>
        rw [List.find?_eq_none] at hfind
        exact absurd (decide_eq_true rfl) (hfind _ hmem)
    | some p =>
        have hname := List.find?_some hfind
        rw [decide_eq_true_eq] at hname
        have hsame := List.inj_on_of_nodup_map hs.nodup (List.mem_of_find?_eq_some hfind) hmem hname
        exact ⟨p, rfl, by rw [hsame]⟩

theorem pointer_eq_none : s.pointer h = none ↔ ∀ n, (h, n) ∉ s.held := by
  rw [pointer, Option.map_eq_none_iff, List.find?_eq_none]
  constructor
  · exact fun hnone n hmem => hnone _ hmem (decide_eq_true rfl)
  · rintro hnone ⟨h', n⟩ hmem hname
    rw [decide_eq_true_eq] at hname
    exact hnone n (hname ▸ hmem)

/-- The pointer of an entry is never empty, and never expired. -/
theorem Sound.lock_eq (hs : s.Sound) (address : Address) :
    s.lock address = (s.overlappedSockets address).join := by
  cases hentry : s.overlappedSockets address with
  | none => rw [lock, hentry]; rfl
  | some entry =>
      obtain ⟨h, n, rfl, hheld, -⟩ := hs.entry hentry
      rw [lock, hentry, Option.join_some, Option.filter_some,
        expired_eq_false.mpr ⟨h, hheld⟩]
      rfl

theorem Sound.lock_eq_some (hs : s.Sound) :
    s.lock address = some n ↔ (∃ h, (h, n) ∈ s.held) ∧ (s.natives n).overlapKey = address := by
  rw [hs.lock_eq]
  constructor
  · intro hlock
    cases hentry : s.overlappedSockets address with
    | none =>
        rw [hentry] at hlock
        cases hlock
    | some entry =>
        obtain ⟨h, n', rfl, hheld, hkey⟩ := hs.entry hentry
        rw [hentry, Option.join_some, Option.some_inj] at hlock
        subst hlock
        exact ⟨⟨h, hheld⟩, hkey⟩
  · rintro ⟨⟨h, hheld⟩, rfl⟩
    rw [hs.listed hheld]
    rfl

/-! ## Letting go -/

theorem mem_filter_ne {held : List (Holder × ℕ)} {h h' : Holder} :
    (h', n) ∈ held.filter (fun p => p.1 ≠ h) ↔ (h', n) ∈ held ∧ h' ≠ h := by
  simp

theorem release_of_none (hnone : s.pointer h = none) : s.release h = s := by
  rw [release, hnone]

/-- Somebody else holds the socket too. -/
theorem Sound.release_of_shared (hs : s.Sound) (hheld : (h, n) ∈ s.held) {h' : Holder}
    (hother : (h', n) ∈ s.held) (hne : h' ≠ h) :
    s.release h = { s with held := s.held.filter fun p => p.1 ≠ h } := by
  rw [release, hs.pointer_eq_some.mpr hheld]
  dsimp only
  rw [if_neg]
  rw [Bool.not_eq_true, expired_eq_false]
  exact ⟨h', mem_filter_ne.mpr ⟨hother, hne⟩⟩

/-- The last one lets go, and the socket is destroyed. -/
theorem Sound.release_of_sole (hs : s.Sound) (hheld : (h, n) ∈ s.held)
    (hsole : ∀ h', (h', n) ∈ s.held → h' = h) :
    s.release h =
      { s with
        held := s.held.filter fun p => p.1 ≠ h
        overlappedSockets :=
          Function.update s.overlappedSockets (s.natives n).overlapKey none
        natives := Function.update s.natives n { s.natives n with isOpen := false } } := by
  have hexpired : expired { s with held := s.held.filter fun p => p.1 ≠ h } n = true := by
    rw [expired_eq_true]
    intro h' hmem
    obtain ⟨hmem, hne⟩ := mem_filter_ne.mp hmem
    exact hne (hsole h' hmem)
  have hlock : lock { s with held := s.held.filter fun p => p.1 ≠ h }
      (s.natives n).overlapKey = none := by
    rw [lock, hs.listed hheld, Option.join_some, Option.filter_some, hexpired]
    rfl
  rw [release, hs.pointer_eq_some.mpr hheld]
  dsimp only
  rw [if_pos hexpired, releaseOverlappedSocket, hlock, hs.listed hheld]
  rfl

/-- A holder that holds something is the only one, or there is another. -/
theorem sole_or_shared (s : SocketImp) (h : Holder) (n : ℕ) :
    (∀ h', (h', n) ∈ s.held → h' = h) ∨ ∃ h', (h', n) ∈ s.held ∧ h' ≠ h := by
  by_cases hsole : ∀ h', (h', n) ∈ s.held → h' = h
  · exact .inl hsole
  · push Not at hsole
    exact .inr hsole

theorem nodup_filter {held : List (Holder × ℕ)} (hnodup : (held.map Prod.fst).Nodup) (h : Holder) :
    ((held.filter fun p => p.1 ≠ h).map Prod.fst).Nodup :=
  hnodup.sublist (List.filter_sublist.map _)

/-- Letting go keeps the table sound, and the holder holds nothing any more. -/
theorem Sound.release (hs : s.Sound) (h : Holder) :
    (s.release h).Sound ∧ ∀ n, (h, n) ∉ (s.release h).held := by
  cases hpointer : s.pointer h with
  | none =>
      rw [release_of_none hpointer]
      exact ⟨hs, pointer_eq_none.mp hpointer⟩
  | some n =>
      have hheld := hs.pointer_eq_some.mp hpointer
      have hgone : ∀ n', (h, n') ∉ s.held.filter fun p => p.1 ≠ h :=
        fun n' hmem => (mem_filter_ne.mp hmem).2 rfl
      rcases s.sole_or_shared h n with hsole | ⟨h', hother, hne⟩
      · rw [hs.release_of_sole hheld hsole]
        -- What is left is another socket, under another address.
        have hleft : ∀ {h' n'}, (h', n') ∈ s.held.filter (fun p => p.1 ≠ h) →
            (h', n') ∈ s.held ∧ n' ≠ n ∧
              (s.natives n').overlapKey ≠ (s.natives n).overlapKey := by
          intro h' n' hmem
          obtain ⟨hmem, hne⟩ := mem_filter_ne.mp hmem
          have hn : n' ≠ n := fun heq => hne (hsole h' (heq ▸ hmem))
          refine ⟨hmem, hn, fun hkey => hn ?_⟩
          have hlisted := hs.listed hmem
          rw [hkey, hs.listed hheld] at hlisted
          exact (Option.some.inj (Option.some.inj hlisted)).symm
        have hnative : ∀ {h' n'}, (h', n') ∈ s.held.filter (fun p => p.1 ≠ h) →
            Function.update s.natives n { s.natives n with isOpen := false } n' = s.natives n' :=
          fun hmem => Function.update_of_ne (hleft hmem).2.1 _ _
        refine ⟨⟨nodup_filter hs.nodup h, fun hmem => hs.made (hleft hmem).1, ?_, ?_, ?_⟩, hgone⟩
        · intro h' n' hmem
          dsimp only at hmem ⊢
          rw [hnative hmem, Function.update_of_ne (hleft hmem).2.2]
          exact hs.listed (hleft hmem).1
        · intro address entry hentry
          dsimp only at hentry ⊢
          by_cases hkey : address = (s.natives n).overlapKey
          · rw [hkey, Function.update_self] at hentry
            cases hentry
          · rw [Function.update_of_ne hkey] at hentry
            obtain ⟨h', n', rfl, hmem, rfl⟩ := hs.entry hentry
            have hne : h' ≠ h := by
              rintro rfl
              have hsame := hs.pointer_eq_some.mpr hmem
              rw [hpointer, Option.some_inj] at hsame
              exact hkey (by rw [hsame])
            have hmem' := mem_filter_ne.mpr ⟨hmem, hne⟩
            exact ⟨h', n', rfl, hmem', by rw [hnative hmem']⟩
        · intro id n' hmem
          dsimp only at hmem ⊢
          rw [hnative hmem]
          exact hs.address (hleft hmem).1
      · rw [hs.release_of_shared hheld hother hne]
        have hleft : ∀ {h' n'}, (h', n') ∈ s.held.filter (fun p => p.1 ≠ h) → (h', n') ∈ s.held :=
          fun hmem => (mem_filter_ne.mp hmem).1
        refine ⟨⟨nodup_filter hs.nodup h, fun hmem => hs.made (hleft hmem),
          fun hmem => hs.listed (hleft hmem), ?_, fun hmem => hs.address (hleft hmem)⟩, hgone⟩
        intro address entry hentry
        obtain ⟨k, n', rfl, hmem, hkey⟩ := hs.entry hentry
        by_cases hk : k = h
        · have hsame := hs.pointer_eq_some.mpr (hk ▸ hmem)
          rw [hpointer, Option.some_inj] at hsame
          exact ⟨h', n', rfl, mem_filter_ne.mpr ⟨hsame ▸ hother, hne⟩, hkey⟩
        · exact ⟨k, n', rfl, mem_filter_ne.mpr ⟨hmem, hk⟩, hkey⟩

/-! ## Acquiring -/

theorem acquire_of_lock (hlock : s.lock address = some n) (h : Holder) (error : Bool) :
    s.acquire h address error = { s with held := (h, n) :: s.held } := by
  rw [acquire, getOverlappedSocket, hlock]

/-- Without a pointer there is no entry either. -/
theorem Sound.overlappedSockets_of_lock (hs : s.Sound) (hlock : s.lock address = none) :
    s.overlappedSockets address = none := by
  cases hentry : s.overlappedSockets address with
  | none => rfl
  | some entry =>
      obtain ⟨h, n, rfl, -, -⟩ := hs.entry hentry
      rw [hs.lock_eq, hentry] at hlock
      cases hlock

/-- A socket that cannot be opened leaves no entry behind. -/
theorem Sound.acquire_of_error (hs : s.Sound) (hlock : s.lock address = none) (h : Holder) :
    s.acquire h address true = { s with next := s.next + 1 } := by
  have hnone := hs.overlappedSockets_of_lock hlock
  have hempty : lock { s with
      overlappedSockets := Function.update s.overlappedSockets address (some none)
      next := s.next + 1 } address = none := by
    rw [lock]
    dsimp only
    rw [Function.update_self]
    rfl
  rw [acquire, getOverlappedSocket, hlock]
  dsimp only
  rw [if_pos rfl, hnone, Option.getD_none, releaseOverlappedSocket, hempty]
  simp only [Function.update_self, Option.isSome_some, if_true, Function.update_idem]
  rw [← hnone, Function.update_eq_self]

theorem acquire_of_new (hlock : s.lock address = none) (h : Holder) :
    s.acquire h address false =
      { s with
        held := (h, s.next) :: s.held
        next := s.next + 1
        overlappedSockets := Function.update s.overlappedSockets address (some (some s.next))
        natives := Function.update s.natives s.next
          (Native.doReceive s.running { overlapKey := address, isOpen := true }) } := by
  rw [acquire, getOverlappedSocket, hlock]
  dsimp only
  rw [if_neg Bool.false_ne_true, Function.update_idem]

@[simp] theorem Native.overlapKey_doReceive (running : Bool) (native : Native) :
    (native.doReceive running).overlapKey = native.overlapKey := by
  rw [Native.doReceive]
  split <;> rfl

theorem nodup_cons {held : List (Holder × ℕ)} (hnodup : (held.map Prod.fst).Nodup)
    (hnone : ∀ n, (h, n) ∉ held) (n : ℕ) : (((h, n) :: held).map Prod.fst).Nodup := by
  rw [List.map_cons, List.nodup_cons]
  refine ⟨fun hmem => ?_, hnodup⟩
  obtain ⟨⟨h', n'⟩, hheld, hname⟩ := List.mem_map.mp hmem
  obtain rfl : h' = h := hname
  exact hnone n' hheld

/-- A pointer is copied. -/
theorem Sound.copy (hs : s.Sound) (hnone : ∀ n, (h, n) ∉ s.held) {h' : Holder}
    (hheld : (h', n) ∈ s.held)
    (haddress : ∀ id, h = .connection id → (s.natives n).overlapKey = s.remoteAddress id) :
    Sound { s with held := (h, n) :: s.held } where
  nodup := nodup_cons hs.nodup hnone n
  made hmem := by
    rcases List.mem_cons.mp hmem with heq | hmem
    · cases heq
      exact hs.made hheld
    · exact hs.made hmem
  listed hmem := by
    rcases List.mem_cons.mp hmem with heq | hmem
    · cases heq
      exact hs.listed hheld
    · exact hs.listed hmem
  entry hentry := by
    obtain ⟨k, n', hentry, hmem, hkey⟩ := hs.entry hentry
    exact ⟨k, n', hentry, List.mem_cons_of_mem _ hmem, hkey⟩
  address {id _} hmem := by
    rcases List.mem_cons.mp hmem with heq | hmem
    · cases heq
      exact haddress id rfl
    · exact hs.address hmem

/-- A new socket is entered. -/
theorem Sound.enter (hs : s.Sound) (hlock : s.lock address = none) (hnone : ∀ n, (h, n) ∉ s.held)
    (haddress : ∀ id, h = .connection id → address = s.remoteAddress id) :
    (s.acquire h address false).Sound := by
  have hentry := hs.overlappedSockets_of_lock hlock
  rw [acquire_of_new hlock]
  have hold : ∀ {h' n'}, (h', n') ∈ s.held → n' ≠ s.next ∧ (s.natives n').overlapKey ≠ address := by
    intro h' n' hmem
    refine ⟨(hs.made hmem).ne, fun hkey => ?_⟩
    have hlisted := hs.listed hmem
    rw [hkey, hentry] at hlisted
    cases hlisted
  have hnative : ∀ {native : Native} {h' n'}, (h', n') ∈ s.held →
      Function.update s.natives s.next native n' = s.natives n' :=
    fun hmem => Function.update_of_ne (hold hmem).1 _ _
  refine ⟨nodup_cons hs.nodup hnone _, ?_, ?_, ?_, ?_⟩
  · intro h' n' hmem
    rcases List.mem_cons.mp hmem with heq | hmem
    · cases heq
      exact Nat.lt_succ_self _
    · exact Nat.lt_succ_of_lt (hs.made hmem)
  · intro h' n' hmem
    dsimp only
    rcases List.mem_cons.mp hmem with heq | hmem
    · cases heq
      rw [Function.update_self, Native.overlapKey_doReceive, Function.update_self]
    · rw [hnative hmem, Function.update_of_ne (hold hmem).2]
      exact hs.listed hmem
  · intro a entry ha
    dsimp only at ha ⊢
    by_cases heq : a = address
    · rw [heq, Function.update_self] at ha
      cases ha
      refine ⟨h, s.next, rfl, List.mem_cons_self, ?_⟩
      rw [Function.update_self, Native.overlapKey_doReceive, heq]
    · rw [Function.update_of_ne heq] at ha
      obtain ⟨k, n', hentry, hmem, hkey⟩ := hs.entry ha
      exact ⟨k, n', hentry, List.mem_cons_of_mem _ hmem, by rw [hnative hmem, hkey]⟩
  · intro id n' hmem
    dsimp only
    rcases List.mem_cons.mp hmem with heq | hmem
    · cases heq
      rw [Function.update_self, Native.overlapKey_doReceive]
      exact haddress id rfl
    · rw [hnative hmem]
      exact hs.address hmem

/-- Acquiring a socket keeps the table sound. -/
theorem Sound.acquire (hs : s.Sound) (hnone : ∀ n, (h, n) ∉ s.held)
    (haddress : ∀ id, h = .connection id → address = s.remoteAddress id) (error : Bool) :
    (s.acquire h address error).Sound := by
  cases hlock : s.lock address with
  | some n =>
      obtain ⟨⟨h', hheld⟩, hkey⟩ := hs.lock_eq_some.mp hlock
      rw [acquire_of_lock hlock]
      exact hs.copy hnone hheld fun id hid => hkey.trans (haddress id hid)
  | none =>
      cases error with
      | false => exact hs.enter hlock hnone haddress
      | true =>
          rw [hs.acquire_of_error hlock]
          exact { hs with made := fun hmem => Nat.lt_succ_of_lt (hs.made hmem) }

/-! ## Every event keeps the table sound -/

/-- The table does not depend on the handles. -/
theorem Sound.congr {s' : SocketImp} (hs : s.Sound) (hheld : s'.held = s.held)
    (hnext : s'.next = s.next) (htable : s'.overlappedSockets = s.overlappedSockets)
    (hkey : ∀ n, (s'.natives n).overlapKey = (s.natives n).overlapKey)
    (hremote : s'.remoteAddress = s.remoteAddress) : s'.Sound where
  nodup := by rw [hheld]; exact hs.nodup
  made hmem := by
    rw [hheld] at hmem
    rw [hnext]
    exact hs.made hmem
  listed hmem := by
    rw [hheld] at hmem
    rw [htable, hkey]
    exact hs.listed hmem
  entry hentry := by
    rw [htable] at hentry
    obtain ⟨h, n, hentry, hmem, haddress⟩ := hs.entry hentry
    exact ⟨h, n, hentry, by rwa [hheld], by rw [hkey, haddress]⟩
  address hmem := by
    rw [hheld] at hmem
    rw [hkey, hremote]
    exact hs.address hmem

/-- A connection without a socket may have any remote address. -/
theorem Sound.setRemoteAddress (hs : s.Sound) {id : ℕ} (hnone : ∀ n, (.connection id, n) ∉ s.held)
    (address : Address) :
    Sound { s with remoteAddress := Function.update s.remoteAddress id address } where
  __ := hs
  address {id' n} hmem := by
    have hne : id' ≠ id := by
      rintro rfl
      exact hnone n hmem
    dsimp only
    rw [Function.update_of_ne hne]
    exact hs.address hmem

/-- The remote addresses play no part in letting go. -/
theorem release_remoteAddress (s : SocketImp) (h : Holder) (remoteAddress : ℕ → Address) :
    release { s with remoteAddress := remoteAddress } h =
      { s.release h with remoteAddress := remoteAddress } := by
  have hpointer : pointer { s with remoteAddress := remoteAddress } h = s.pointer h := rfl
  have hrelease : ∀ (t : SocketImp) key,
      releaseOverlappedSocket { t with remoteAddress := remoteAddress } key =
        { t.releaseOverlappedSocket key with remoteAddress := remoteAddress } := by
    intro t key
    have hlock : lock { t with remoteAddress := remoteAddress } key = t.lock key := rfl
    rw [releaseOverlappedSocket, releaseOverlappedSocket, hlock]
    dsimp only
    split
    · split <;> rfl
    · rfl
  rw [release, release, hpointer]
  cases s.pointer h with
  | none => rfl
  | some n =>
      have hexpired : expired { s with
          remoteAddress := remoteAddress, held := s.held.filter fun p => p.1 ≠ h } n =
          expired { s with held := s.held.filter fun p => p.1 ≠ h } n := rfl
      dsimp only
      rw [hexpired]
      split
      · rw [hrelease { s with held := s.held.filter fun p => p.1 ≠ h }]
      · rfl

theorem remoteAddress_release (s : SocketImp) (h : Holder) :
    (s.release h).remoteAddress = s.remoteAddress := by
  have hcopy := release_remoteAddress s h s.remoteAddress
  rw [hcopy]

/-- A connection takes a socket for its remote address, after it has let go of the one it had. -/
theorem Sound.reacquire (hs : s.Sound) (id : ℕ) (address : Address) (error : Bool) :
    (reacquireOverlappedSocket
      { s with remoteAddress := Function.update s.remoteAddress id address } id error).Sound := by
  obtain ⟨hrelease, hnone⟩ := hs.release (.connection id)
  rw [reacquireOverlappedSocket, release_remoteAddress, ← s.remoteAddress_release (.connection id)]
  refine (hrelease.setRemoteAddress hnone address).acquire hnone ?_ error
  rintro _ ⟨⟩
  rfl

theorem Sound.relocateConnection (hs : s.Sound) (id : ℕ) (error : Bool) :
    (s.reacquireOverlappedSocket id error).Sound := by
  have hsame := hs.reacquire id (s.remoteAddress id) error
  rwa [Function.update_eq_self] at hsame

theorem overlapKey_close (s : SocketImp) (n : ℕ) :
    (s.close.natives n).overlapKey = (s.natives n).overlapKey := by
  rw [close]
  split
  · dsimp only
    split <;> rfl
  · rfl

theorem overlapKey_complete (s : SocketImp) (m n : ℕ) :
    ((s.complete m).natives n).overlapKey = (s.natives n).overlapKey := by
  rw [complete]
  split
  · rfl
  · dsimp only
    by_cases hn : n = m
    · subst hn
      rw [Function.update_self]
      split
      · rfl
      · rw [Native.overlapKey_doReceive]
    · rw [Function.update_of_ne hn]

/-- A send copies the pointer of its connection, or nothing happens. -/
theorem step_send (s : SocketImp) (id connection : ℕ) :
    s.step (.send id connection) = s ∨
      ∃ n, s.pointer (.send id) = none ∧ s.pointer (.connection connection) = some n ∧
        (s.natives n).isOpen = true ∧
        s.step (.send id connection) = { s with held := (.send id, n) :: s.held } := by
  rw [step]
  split
  · exact .inl rfl
  next hpointer =>
    split
    · exact .inl rfl
    next n hconnection =>
      split
      next hopen => exact .inr ⟨n, by simpa using hpointer, hconnection, hopen, rfl⟩
      next => exact .inl rfl

/-- A lock copies the pointer of whoever holds the socket, or nothing happens. -/
theorem step_lock (s : SocketImp) (id n : ℕ) :
    s.step (.lock id n) = s ∨
      ∃ h, s.pointer (.handler id) = none ∧ (h, n) ∈ s.held ∧
        s.step (.lock id n) = { s with held := (.handler id, n) :: s.held } := by
  rw [step]
  split
  · exact .inl rfl
  next hfree =>
    rw [Bool.not_eq_true, Bool.or_eq_false_iff, expired_eq_false] at hfree
    obtain ⟨hpointer, h, hheld⟩ := hfree
    exact .inr ⟨h, by simpa using hpointer, hheld, rfl⟩

/-- **Every event keeps the table sound.** -/
theorem Sound.step (hs : s.Sound) (event : ImpEvent) : (s.step event).Sound := by
  cases event with
  | openConnection id remoteAddress error =>
      rw [SocketImp.step]
      split
      · exact hs
      next hpointer =>
        rw [Bool.not_eq_true, Option.isSome_eq_false_iff, Option.isNone_iff_eq_none,
          pointer_eq_none] at hpointer
        refine (hs.setRemoteAddress hpointer remoteAddress).acquire hpointer ?_ error
        rintro _ ⟨⟩
        dsimp only
        rw [Function.update_self]
  | onRemoteAddressChanged id remoteAddress error => exact hs.reacquire id remoteAddress error
  | relocateConnection id error => exact hs.relocateConnection id error
  | clear | destroyConnection | sent | unlock => exact (hs.release _).1
  | get id error =>
      rw [SocketImp.step]
      split
      · exact hs
      next hpointer =>
        rw [Bool.not_eq_true, Option.isSome_eq_false_iff, Option.isNone_iff_eq_none,
          pointer_eq_none] at hpointer
        refine hs.acquire hpointer ?_ error
        rintro _ ⟨⟩
        rfl
  | send id connection =>
      rcases s.step_send id connection with hstep | ⟨n, hpointer, hconnection, -, hstep⟩ <;>
        rw [hstep]
      · exact hs
      · exact hs.copy (pointer_eq_none.mp hpointer) (hs.pointer_eq_some.mp hconnection)
          fun id hid => by cases hid
  | lock id n =>
      rcases s.step_lock id n with hstep | ⟨h, hpointer, hheld, hstep⟩ <;> rw [hstep]
      · exact hs
      · exact hs.copy (pointer_eq_none.mp hpointer) hheld fun id hid => by cases hid
  | complete n =>
      refine hs.congr ?_ ?_ ?_ (s.overlapKey_complete n) ?_ <;>
        (rw [SocketImp.step, SocketImp.complete]; split <;> rfl)
  | completeSocket =>
      refine hs.congr ?_ ?_ ?_ (fun _ => ?_) ?_ <;>
        (rw [SocketImp.step, SocketImp.completeSocket]; split <;> rfl)
  | close =>
      refine hs.congr ?_ ?_ ?_ s.overlapKey_close ?_ <;>
        (rw [SocketImp.step, SocketImp.close]; split <;> rfl)
  | acquireAddress | «open» => exact hs.congr rfl rfl rfl (fun _ => rfl) rfl

theorem Sound.run (hs : s.Sound) (events : List ImpEvent) :
    (Machine.run SocketImp.step s events).Sound :=
  run_invariant_of_step Sound (fun _ event hs => hs.step event) hs events

/-- **One native socket for each remote address.**  Whatever happens, two connections that have a
socket share it exactly if they have the same remote address, the table has an entry for an address
exactly if somebody holds the socket connected to it, and the entry then points to that socket. -/
theorem shares_by_remoteAddress (events : List ImpEvent) :
    (∀ id id' n n', (Machine.run step {} events).pointer (.connection id) = some n →
      (Machine.run step {} events).pointer (.connection id') = some n' →
        (n = n' ↔ (Machine.run step {} events).remoteAddress id =
          (Machine.run step {} events).remoteAddress id')) ∧
      ∀ address entry, (Machine.run step {} events).overlappedSockets address = some entry ↔
        ∃ h n, entry = some n ∧ (Machine.run step {} events).pointer h = some n ∧
          ((Machine.run step {} events).natives n).overlapKey = address := by
  have hs := Sound.init.run events
  generalize Machine.run step {} events = s at hs
  constructor
  · intro id id' n n' hn hn'
    rw [hs.pointer_eq_some] at hn hn'
    constructor
    · rintro rfl
      exact (hs.address hn).symm.trans (hs.address hn')
    · intro hremote
      have hlisted := hs.listed hn
      rw [hs.address hn, hremote, ← hs.address hn', hs.listed hn'] at hlisted
      exact (Option.some.inj (Option.some.inj hlisted)).symm
  · intro address entry
    constructor
    · intro hentry
      obtain ⟨h, n, rfl, hheld, hkey⟩ := hs.entry hentry
      exact ⟨h, n, rfl, hs.pointer_eq_some.mpr hheld, hkey⟩
    · rintro ⟨h, n, rfl, hpointer, rfl⟩
      exact hs.listed (hs.pointer_eq_some.mp hpointer)

end SocketImp
end Imp
end MrUDP
