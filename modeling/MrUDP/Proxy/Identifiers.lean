import MrUDP.Proxy.Proxy

/-!
# The identifiers of a pair of proxies

`mrudp/Proxy.cpp`.  The proxies at the two ends of a wire number their connections each on its own,
and tell the other the numbers with the connections.  The first byte of a number says which of the
two gave it; the other three count, and begin again after `2 ^ 24` connections, whether or not the
first of them are still there.  The wire of the proxy that connected is number 0, and is there as
long as the proxy is.

## Main definitions

* `Proxy.proxyID`: the numbers that a proxy gives.
* `Proxy.Pair`: two proxies and what is on the wire between them, as a machine.
* `Proxy.Settles`: a change that takes no number.
* `Proxy.Pair.Allocates`: who uses which numbers.
* `Proxy.Pair.identifiers_free`: no number is used twice, while there are numbers.
* `Proxy.Pair.identifiers_wrap`: the wire is overwritten.
-/

namespace MrUDP
open Wire Machine
open Std (ExtTreeMap LawfulEqCmp)

namespace Proxy

/-! ## Numbers -/

/-- The proxy that connected, and the one that was connected to. -/
inductive Side
  | connecting
  | accepting
  deriving DecidableEq, Repr

namespace Side

/-- The other side. -/
def other : Side → Side
  | .connecting => .accepting
  | .accepting => .connecting

@[simp] theorem other_other (side : Side) : side.other.other = side := by cases side <;> rfl
@[simp] theorem other_ne (side : Side) : side.other ≠ side := by cases side <;> simp [other]
@[simp] theorem ne_other (side : Side) : side ≠ side.other := (other_ne side).symm

/-- The first byte of the numbers of a side. -/
def server : Side → ProxyID
  | .connecting => 0
  | .accepting => serverID

end Side

/-- The `i`th number of a side. -/
def proxyID (side : Side) (i : ℕ) : ProxyID :=
  side.server ||| (BitVec.ofNat 32 i &&& connectionID)

theorem proxyID_and_serverID (side : Side) (i : ℕ) :
    proxyID side i &&& serverID = side.server := by
  have hdisjoint : connectionID &&& serverID = 0 := by decide
  have hserver : side.server &&& serverID = side.server := by cases side <;> decide
  rw [proxyID, BitVec.and_comm, BitVec.and_or_distrib_left, BitVec.and_comm, hserver,
    BitVec.and_comm serverID, BitVec.and_assoc, hdisjoint]
  simp

theorem proxyID_and_connectionID (side : Side) (i : ℕ) :
    proxyID side i &&& connectionID = BitVec.ofNat 32 i &&& connectionID := by
  have hdisjoint : side.server &&& connectionID = 0 := by cases side <;> decide
  rw [proxyID, BitVec.and_comm, BitVec.and_or_distrib_left, BitVec.and_comm, hdisjoint,
    BitVec.and_comm connectionID, BitVec.and_assoc, BitVec.and_self]
  simp

theorem toNat_and_connectionID (id : ProxyID) :
    (id &&& connectionID).toNat = id.toNat % 2 ^ 24 := by
  have hmask : connectionID.toNat = 2 ^ 24 - 1 := by decide
  rw [BitVec.toNat_and, hmask, Nat.and_two_pow_sub_one_eq_mod]

theorem and_connectionID_add_one {id id' : ProxyID}
    (h : id &&& connectionID = id' &&& connectionID) :
    (id + 1) &&& connectionID = (id' + 1) &&& connectionID := by
  have hmod := congrArg BitVec.toNat h
  apply BitVec.eq_of_toNat_eq
  rw [toNat_and_connectionID, toNat_and_connectionID] at hmod ⊢
  rw [BitVec.toNat_add, BitVec.toNat_add]
  norm_num
  omega

theorem incrementProxyID_proxyID (side : Side) (i : ℕ) :
    incrementProxyID (proxyID side i) = proxyID side (i + 1) := by
  rw [incrementProxyID, proxyID_and_serverID,
    and_connectionID_add_one (proxyID_and_connectionID side i), proxyID, BitVec.ofNat_add]
  rfl

/-- The numbers of a side differ until they begin again. -/
theorem proxyID_inj {side : Side} {i j : ℕ} (h : proxyID side i = proxyID side j)
    (hi : i < 2 ^ 24) (hj : j < 2 ^ 24) : i = j := by
  have hmod := congrArg (fun id => (id &&& connectionID).toNat) h
  simp only [proxyID_and_connectionID, toNat_and_connectionID, BitVec.toNat_ofNat] at hmod
  omega

/-- A number says which side gave it. -/
theorem side_eq_of_proxyID_eq {side side' : Side} {i j : ℕ}
    (h : proxyID side i = proxyID side' j) : side = side' := by
  have hserver := congrArg (· &&& serverID) h
  simp only [proxyID_and_serverID] at hserver
  revert hserver
  cases side <;> cases side' <;> decide

/-! ## Changes that take no number -/

/-- The numbers of the connections that messages open. -/
def opens (messages : List Message) : List ProxyID :=
  messages.filterMap fun
    | .open id _ => some id
    | .close _ | .data _ _ _ => none

@[simp] theorem opens_append (messages messages' : List Message) :
    opens (messages ++ messages') = opens messages ++ opens messages' := List.filterMap_append ..

theorem opens_closes {messages : List Message} {id : ProxyID}
    (h : ∀ message ∈ messages, message = .close id) : opens messages = [] := by
  apply List.filterMap_eq_nil_iff.mpr
  intro message hmessage
  rw [h message hmessage]

/-- A change that takes no number, writes no entry and opens nothing: connections may stop calling
back, entries may go or learn their mode, and what is to be sent may be sent. -/
structure Settles (s t : Proxy) : Prop where
  nextProxyID : t.nextProxyID = s.nextProxyID
  allocated : t.allocated = s.allocated
  opened : t.opened = s.opened
  overwritten : t.overwritten = s.overwritten
  handlers : ∀ (h : Handle) (id : ProxyID), t.handlers[h]? = some id → s.handlers[h]? = some id
  undecided : ∀ (id : ProxyID) (entry : ProxyConnection), t.connections[id]? = some entry →
    entry.mode = .none → ∃ entry', s.connections[id]? = some entry' ∧ entry'.mode = .none
  opens : (opens t.out).Sublist (opens s.out)

variable {s t u : Proxy}

namespace Settles

theorem refl (s : Proxy) : Settles s s where
  nextProxyID := rfl
  allocated := rfl
  opened := rfl
  overwritten := rfl
  handlers _ _ h := h
  undecided _ entry hentry hmode := ⟨entry, hentry, hmode⟩
  opens := .refl _

theorem trans (h : Settles s t) (h' : Settles t u) : Settles s u where
  nextProxyID := h'.nextProxyID.trans h.nextProxyID
  allocated := h'.allocated.trans h.allocated
  opened := h'.opened.trans h.opened
  overwritten := h'.overwritten.trans h.overwritten
  handlers c id hc := h.handlers c id (h'.handlers c id hc)
  undecided id entry hentry hmode := by
    obtain ⟨entry', hentry', hmode'⟩ := h'.undecided id entry hentry hmode
    exact h.undecided id entry' hentry' hmode'
  opens := h'.opens.trans h.opens

theorem use (s : Proxy) (c : Option Handle) : Settles s (s.use c) := by
  cases c with
  | none => exact refl s
  | some h =>
      simp only [Proxy.use]
      split
      · exact { refl s with }
      · exact refl s

theorem setConnection (s : Proxy) (id : ProxyID) (c : Option Handle) :
    Settles s (s.setConnection id c) := by
  refine { refl s with undecided := ?_ }
  intro k entry hentry hmode
  rw [getElem?_setConnection] at hentry
  split at hentry
  · obtain ⟨entry', hentry', rfl⟩ := Option.map_eq_some_iff.mp hentry
    exact ⟨entry', hentry', hmode⟩
  · exact ⟨entry, hentry, hmode⟩

theorem onClosed (s : Proxy) (id : ProxyID) : Settles s (s.onClosed id) := by
  obtain ⟨closes, connections, heq, hcloses, hconnections⟩ := s.onClosed_eq id
  rw [heq]
  refine { refl s with undecided := ?_, opens := ?_ }
  · intro k entry hentry hmode
    obtain rfl | rfl := hconnections
    · exact ⟨entry, hentry, hmode⟩
    · simp only [ExtTreeMap.getElem?_erase, LawfulEqCmp.compare_eq_iff_eq] at hentry
      split at hentry
      · simp at hentry
      · exact ⟨entry, hentry, hmode⟩
  · rw [opens_append, opens_closes hcloses, List.append_nil]

/-- A call back settles if the closing it does settles. -/
theorem closeUser {close : Proxy → Option Handle → Proxy} (hclose : ∀ s c, Settles s (close s c))
    (s : Proxy) (h : Handle) : Settles s (Proxy.closeUser close s h) := by
  unfold Proxy.closeUser
  split
  · exact refl s
  · have herase : Settles s { s with handlers := s.handlers.erase h } := by
      refine { refl s with handlers := ?_ }
      intro c id hc
      simp only [ExtTreeMap.getElem?_erase, LawfulEqCmp.compare_eq_iff_eq] at hc
      split at hc
      · simp at hc
      · exact hc
    unfold onConnectionClose
    split
    · exact herase
    · exact ((herase.trans (hclose _ _)).trans (setConnection _ _ _)).trans (onClosed _ _)

theorem closeConnectionWithin (depth : ℕ) (s : Proxy) (c : Option Handle) :
    Settles s (closeConnectionWithin depth s c) := by
  induction depth generalizing s c with
  | zero => cases c <;> exact refl s
  | succ depth ih =>
      cases c with
      | none => exact refl s
      | some h =>
          simp only [Proxy.closeConnectionWithin]
          split
          · exact use s _
          · have hdead : Settles s { s with dead := h :: s.dead } := { refl s with }
            exact hdead.trans (closeUser ih _ h)

theorem closeConnection (s : Proxy) (c : Option Handle) : Settles s (s.closeConnection c) :=
  closeConnectionWithin _ s c

theorem initiateConnectionClose (s : Proxy) (id : ProxyID) :
    Settles s (s.initiateConnectionClose id) := by
  unfold Proxy.initiateConnectionClose
  split
  · exact refl s
  · exact (setConnection s id none).trans (closeConnection _ _)

theorem foldl_closeConnection (ids : List ProxyID) (s : Proxy) :
    Settles s (ids.foldl (fun s id => s.closeConnection (s.connection id)) s) := by
  induction ids generalizing s with
  | nil => exact refl s
  | cons id ids ih => exact (closeConnection s _).trans (ih _)

theorem close (s : Proxy) : Settles s s.close := by
  have hwire : Settles s
      { s.closeConnection s.wire with closed := true, wire := none, moved := true } :=
    { closeConnection s s.wire with }
  refine { hwire.trans (foldl_closeConnection _ _) with undecided := ?_ }
  intro id entry hentry
  simp [Proxy.close] at hentry

theorem tick (s : Proxy) (ready : Bool) : Settles s (s.tick ready) := by
  unfold Proxy.tick
  split
  · exact refl s
  · have huse := use s s.wire
    dsimp only
    split
    · refine { huse.trans (use _ _) with opens := ?_ }
      exact List.nil_sublist _
    · exact huse

theorem queue_data (s : Proxy) (id : ProxyID) (isReliable : Bool) (bytes : Bytes) :
    Settles s (s.queue (.data id isReliable bytes)) := by
  refine { refl s with opens := ?_ }
  rw [queue, opens_append]
  simp [Proxy.opens]

theorem onProxyPacket (s : Proxy) (id : ProxyID) (data : Bytes) (isReliable : Bool) :
    Settles s (s.onProxyPacket id data isReliable) := by
  unfold Proxy.onProxyPacket
  split
  · exact refl s
  · exact queue_data s id isReliable data

/-- An entry learns its mode. -/
theorem insert (s : Proxy) (id : ProxyID) (entry : ProxyConnection) (hmode : entry.mode ≠ .none) :
    Settles s { s with connections := s.connections.insert id entry } := by
  refine { refl s with undecided := ?_ }
  intro k e he hnone
  simp only [ExtTreeMap.getElem?_insert, LawfulEqCmp.compare_eq_iff_eq] at he
  split at he
  · obtain rfl := Option.some.inj he
    exact absurd hnone hmode
  · exact ⟨e, he, hnone⟩

/-- Nothing happens to a proxy that has been closed. -/
theorem ite_closed (h : Settles s t) : Settles s (if s.closed then s else t) := by
  split
  · exact refl s
  · exact h

end Settles

/-- A packet settles, unless it is a client's first, which opens a connection on the other side. -/
theorem onConnectionPacket_cases (s : Proxy) (id : ProxyID) (data : Bytes) (isReliable : Bool) :
    Settles s (s.onConnectionPacket id data isReliable) ∨
      ∃ entry address, s.connections[id]? = some entry ∧ entry.mode = .none ∧
        Settles { s.queue (.open id address) with
          connections := s.connections.insert id { entry with mode := .connection } }
          (s.onConnectionPacket id data isReliable) := by
  unfold onConnectionPacket
  split
  · exact .inl (.refl s)
  · rename_i entry hentry
    split
    · exact .inl (.refl s)
    · split
      · rename_i hmode
        unfold onModePacket
        split
        · exact .inl (.refl s)
        · split
          · left
            exact { Settles.insert s id { entry with mode := .wire } (by simp) with }
          · split
            · split
              · exact .inl (.refl s)
              · rename_i address input _
                exact .inr ⟨entry, address, hentry, hmode, .onProxyPacket _ _ _ _⟩
            · exact .inl (.refl s)
      · exact .inl (.refl s)
      · exact .inl (.onProxyPacket _ _ _ _)

/-! ## The numbers of one side -/

/-- A number that the side has given. -/
def Own (side : Side) (n : ℕ) (id : ProxyID) : Prop := ∃ i < n, id = proxyID side i

theorem Own.mono {side : Side} {n m : ℕ} {id : ProxyID} (h : Own side n id) (hle : n ≤ m) :
    Own side m id := by
  obtain ⟨i, hi, rfl⟩ := h
  exact ⟨i, hi.trans_le hle, rfl⟩

/-- The numbers that a side uses.  `passed` are those of the connections that it has had opened on
the other side, on the wire or there. -/
structure Allocates (side : Side) (s : Proxy) (passed : List ProxyID) : Prop where
  next : s.nextProxyID = proxyID side s.allocated
  handlers : ∀ (h : Handle) (id : ProxyID), s.handlers[h]? = some id →
    Own side s.allocated id ∨ id ∈ s.opened
  undecided : ∀ (id : ProxyID) (entry : ProxyConnection), s.connections[id]? = some entry →
    entry.mode = .none → Own side s.allocated id ∧ id ∉ passed ++ opens s.out
  own : ∀ id ∈ passed ++ opens s.out, Own side s.allocated id
  nodup : (passed ++ opens s.out).Nodup
  overwritten : s.overwritten = []

namespace Allocates

variable {side : Side} {passed passed' : List ProxyID}

/-- What has been passed on may be forgotten. -/
theorem settles (h : Allocates side s passed) (hs : Settles s t)
    (hsub : (passed' ++ opens t.out).Sublist (passed ++ opens s.out)) :
    Allocates side t passed' := by
  refine ⟨?_, ?_, ?_, ?_, h.nodup.sublist hsub, ?_⟩
  · rw [hs.nextProxyID, hs.allocated, h.next]
  · intro c id hc
    rw [hs.allocated, hs.opened]
    exact h.handlers c id (hs.handlers c id hc)
  · intro id entry hentry hmode
    obtain ⟨entry', hentry', hmode'⟩ := hs.undecided id entry hentry hmode
    obtain ⟨hown, hnew⟩ := h.undecided id entry' hentry' hmode'
    rw [hs.allocated]
    exact ⟨hown, fun hmem => hnew (hsub.subset hmem)⟩
  · intro id hid
    rw [hs.allocated]
    exact h.own id (hsub.subset hid)
  · rw [hs.overwritten, h.overwritten]

theorem settles_self (h : Allocates side s passed) (hs : Settles s t) : Allocates side t passed :=
  h.settles hs (hs.opens.append_left passed)

/-- A client's connection is to be opened on the other side. -/
theorem announce (h : Allocates side s passed) {id : ProxyID} {entry : ProxyConnection}
    (hentry : s.connections[id]? = some entry) (hmode : entry.mode = .none)
    (address : ProxyAddress) :
    Allocates side { s.queue (.open id address) with
      connections := s.connections.insert id { entry with mode := .connection } } passed := by
  obtain ⟨hown, hnew⟩ := h.undecided id entry hentry hmode
  have hopens : passed ++ opens (s.out ++ [.open id address]) = passed ++ opens s.out ++ [id] := by
    rw [opens_append, List.append_assoc]
    rfl
  refine ⟨h.next, h.handlers, ?_, ?_, ?_, h.overwritten⟩
  · intro k e he hnone
    simp only [ExtTreeMap.getElem?_insert, LawfulEqCmp.compare_eq_iff_eq] at he
    split at he
    · obtain rfl := Option.some.inj he
      simp at hnone
    · rename_i hne
      obtain ⟨hk, hknew⟩ := h.undecided k e he hnone
      refine ⟨hk, ?_⟩
      simp only [queue]
      rw [hopens, List.mem_append, List.mem_singleton, not_or]
      exact ⟨hknew, Ne.symm hne⟩
  · simp only [queue]
    rw [hopens]
    intro k hk
    obtain hk | hk := List.mem_append.mp hk
    · exact h.own k hk
    · rw [List.mem_singleton.mp hk]
      exact hown
  · simp only [queue]
    rw [hopens, ← List.concat_eq_append]
    exact h.nodup.concat hnew

/-- Numbers of the other side are not called back, unless they have been opened. -/
theorem not_isLive (h : Allocates side s passed) {id : ProxyID}
    (hown : ¬ Own side s.allocated id) (hopened : id ∉ s.opened) : ¬ s.isLive id = true := by
  rw [isLive_iff]
  rintro ⟨c, hc⟩
  exact (h.handlers c id hc).elim hown hopened

/-- A connection is accepted, while there are numbers. -/
theorem onSocketAccept (h : Allocates side s passed) (hroom : s.allocated < 2 ^ 24)
    (hopened : ∀ id ∈ s.opened, ∃ i, id = proxyID side.other i) :
    Allocates side s.onSocketAccept passed := by
  have hfresh : ¬ Own side s.allocated s.nextProxyID := by
    rintro ⟨i, hi, heq⟩
    rw [h.next] at heq
    have := proxyID_inj heq hroom (hi.trans hroom)
    omega
  have hforeign : s.nextProxyID ∉ s.opened := by
    intro hmem
    obtain ⟨i, hi⟩ := hopened _ hmem
    rw [h.next] at hi
    exact Side.ne_other side (side_eq_of_proxyID_eq hi)
  have hlive := h.not_isLive hfresh hforeign
  have hown : Own side (s.allocated + 1) s.nextProxyID := ⟨s.allocated, by omega, h.next⟩
  refine ⟨?_, ?_, ?_, ?_, h.nodup, ?_⟩
  · simp only [Proxy.onSocketAccept]
    rw [h.next, incrementProxyID_proxyID]
  · intro c id hc
    simp only [Proxy.onSocketAccept, enter, ExtTreeMap.getElem?_insert,
      LawfulEqCmp.compare_eq_iff_eq] at hc
    split at hc
    · obtain rfl := Option.some.inj hc
      exact .inl hown
    · exact (h.handlers c id hc).imp_left fun hid => hid.mono (by simp [Proxy.onSocketAccept])
  · intro id entry hentry hmode
    simp only [Proxy.onSocketAccept, enter, ExtTreeMap.getElem?_insert,
      LawfulEqCmp.compare_eq_iff_eq] at hentry
    split at hentry
    · subst id
      exact ⟨hown, fun hmem => hfresh (h.own _ hmem)⟩
    · obtain ⟨hid, hnew⟩ := h.undecided id entry hentry hmode
      exact ⟨hid.mono (by simp [Proxy.onSocketAccept]), hnew⟩
  · intro id hid
    exact (h.own id hid).mono (by simp [Proxy.onSocketAccept])
  · exact (if_neg hlive).trans h.overwritten

/-- A connection is opened, with a number that has not been opened. -/
theorem onConnectionOpen (h : Allocates side s passed) {id : ProxyID}
    (hforeign : ∃ i, id = proxyID side.other i) (hnew : id ∉ s.opened) (connects : Bool) :
    Allocates side (s.onConnectionOpen id connects) passed := by
  have hown : ¬ Own side s.allocated id := by
    rintro ⟨i, -, rfl⟩
    obtain ⟨j, hj⟩ := hforeign
    exact Side.ne_other side (side_eq_of_proxyID_eq hj)
  have hlive := h.not_isLive hown hnew
  have hundecided (k : ProxyID) (entry entry' : ProxyConnection) (hmode : entry.mode ≠ .none)
      (hentry : (s.connections.insert id entry)[k]? = some entry') (hnone : entry'.mode = .none) :
      Own side s.allocated k ∧ k ∉ passed ++ opens s.out := by
    obtain ⟨e, he, henone⟩ := (Settles.insert s id entry hmode).undecided k entry' hentry hnone
    exact h.undecided k e he henone
  have hold (c : Handle) (k : ProxyID) (hc : s.handlers[c]? = some k) :
      Own side s.allocated k ∨ k ∈ s.opened ++ [id] :=
    (h.handlers c k hc).imp_right (List.mem_append_left _)
  unfold Proxy.onConnectionOpen
  dsimp only
  split
  · refine ⟨h.next, ?_, ?_, h.own, h.nodup, ?_⟩
    · intro c k hc
      simp only [enter, ExtTreeMap.getElem?_insert, LawfulEqCmp.compare_eq_iff_eq] at hc
      split at hc
      · obtain rfl := Option.some.inj hc
        exact .inr (List.mem_append_right _ List.mem_cons_self)
      · exact hold c k hc
    · intro k entry
      exact hundecided k _ entry (by simp)
    · exact (if_neg hlive).trans h.overwritten
  · refine ⟨h.next, hold, ?_, h.own, h.nodup, ?_⟩
    · intro k entry
      exact hundecided k _ entry (by simp)
    · exact (if_neg hlive).trans h.overwritten

end Allocates

/-! ## Both sides -/

/-- Two proxies, and for each the messages on the wire that are for it. -/
structure Pair where
  proxy : Side → Proxy
  incoming : Side → List Message

/-- What happens to a pair. -/
inductive PairEvent
  /-- A connection is accepted. -/
  | accept (side : Side)
  /-- A connection hands over data. -/
  | packet (side : Side) (h : Handle) (data : Bytes) (isReliable : Bool)
  /-- The library closes a connection. -/
  | closed (side : Side) (h : Handle)
  /-- The ticker sends, if it can, and it may arrive. -/
  | tick (side : Side) (ready arrives : Bool)
  /-- The ticker comes to the next message that has arrived. -/
  | receive (side : Side) (connects : Bool)
  /-- A proxy is closed. -/
  | close (side : Side)

namespace Pair

/-- The proxies at the beginning, and whether the wire could be made. -/
def «open» (options : Side → ProxyOptions) (connects : Bool) : Pair where
  proxy
    | .connecting => Proxy.open (options .connecting) (some connects)
    | .accepting => Proxy.open (options .accepting) none
  incoming _ := []

/-- Something happens to one proxy. -/
def update (x : Pair) (side : Side) (s : Proxy) : Pair :=
  { x with proxy := Function.update x.proxy side s }

/-- Something happens. -/
def step (x : Pair) : PairEvent → Pair
  | .accept side => x.update side ((x.proxy side).step .accept)
  | .packet side h data isReliable =>
      x.update side ((x.proxy side).step (.packet h data isReliable))
  | .closed side h => x.update side ((x.proxy side).step (.closed h))
  | .tick side ready arrives =>
      let s := x.proxy side
      let t := s.step (.tick ready)
      let incoming := x.incoming side.other
      { x.update side t with
        incoming := Function.update x.incoming side.other
          (if t.out = [] ∧ arrives then incoming ++ s.out else incoming) }
  | .receive side connects =>
      match x.incoming side with
      | [] => x
      | message :: messages =>
          if (x.proxy side).wire = none then x
          else
            { x.update side ((x.proxy side).step (.message message connects)) with
              incoming := Function.update x.incoming side messages }
  | .close side => x.update side ((x.proxy side).step .close)

/-- A connection is accepted only while the proxy has given fewer than `2 ^ 24` numbers. -/
def Fresh (x : Pair) : PairEvent → Prop
  | .accept side => (x.proxy side).allocated < 2 ^ 24
  | .packet _ _ _ _ | .closed _ _ | .tick _ _ _ | .receive _ _ | .close _ => True

instance : ∀ (x : Pair) (event : PairEvent), Decidable (x.Fresh event)
  | x, .accept side => inferInstanceAs (Decidable ((x.proxy side).allocated < 2 ^ 24))
  | _, .packet _ _ _ _ => isTrue trivial
  | _, .closed _ _ => isTrue trivial
  | _, .tick _ _ _ => isTrue trivial
  | _, .receive _ _ => isTrue trivial
  | _, .close _ => isTrue trivial

/-- The numbers that a side has passed on: they have been opened or are on the wire. -/
def passed (x : Pair) (side : Side) : List ProxyID :=
  (x.proxy side.other).opened ++ opens (x.incoming side.other)

/-- Either side keeps to its numbers. -/
def Numbered (x : Pair) : Prop := ∀ side, Allocates side (x.proxy side) (x.passed side)

variable {x : Pair} {side : Side}

theorem numbered_of_side (side : Side) (h : Allocates side (x.proxy side) (x.passed side))
    (h' : Allocates side.other (x.proxy side.other) (x.passed side.other)) : x.Numbered := by
  intro side'
  cases side <;> cases side' <;> first | exact h | exact h'

/-- What has been opened came from the other side. -/
theorem Numbered.opened (h : x.Numbered) :
    ∀ id ∈ (x.proxy side).opened, ∃ i, id = proxyID side.other i := by
  intro id hid
  have hpassed : id ∈ x.passed side.other := by
    rw [passed, Side.other_other]
    exact List.mem_append_left _ hid
  obtain ⟨i, -, hi⟩ := (h side.other).own id (List.mem_append_left _ hpassed)
  exact ⟨i, hi⟩

/-- One proxy changes, and opens nothing. -/
theorem Numbered.update (h : x.Numbered) (hs : Allocates side t (x.passed side))
    (hopened : t.opened = (x.proxy side).opened) : (x.update side t).Numbered := by
  apply numbered_of_side side
  · simpa [Pair.update, passed] using hs
  · have hother := h side.other
    simpa [Pair.update, passed, hopened] using hother

theorem Numbered.settles (h : x.Numbered) (hs : Settles (x.proxy side) t) :
    (x.update side t).Numbered :=
  h.update ((h side).settles_self hs) hs.opened

theorem Numbered.accept (h : x.Numbered) (hroom : (x.proxy side).allocated < 2 ^ 24) :
    (x.step (.accept side)).Numbered := by
  simp only [step, Proxy.step]
  split
  · exact h.settles (.refl _)
  · exact h.update ((h side).onSocketAccept hroom h.opened) rfl

theorem Numbered.packet (h : x.Numbered) (c : Handle) (data : Bytes) (isReliable : Bool) :
    (x.step (.packet side c data isReliable)).Numbered := by
  simp only [step, Proxy.step]
  split
  · exact h.settles (.refl _)
  · split
    · exact h.settles (.refl _)
    · rename_i id _
      obtain hs | ⟨entry, address, hentry, hmode, hs⟩ :=
        onConnectionPacket_cases (x.proxy side) id data isReliable
      · exact h.settles hs
      · exact h.update (((h side).announce hentry hmode address).settles_self hs) hs.opened

/-- What is sent and arrives is passed on. -/
theorem Numbered.tick (h : x.Numbered) (ready arrives : Bool) :
    (x.step (.tick side ready arrives)).Numbered := by
  have hs : Settles (x.proxy side) ((x.proxy side).step (.tick ready)) :=
    (Settles.tick _ ready).ite_closed
  simp only [step]
  generalize (x.proxy side).step (.tick ready) = t at hs ⊢
  apply numbered_of_side side
  · simp only [passed, Pair.update, Function.update_self, Function.update_of_ne (Side.other_ne side)]
    apply (h side).settles hs
    split
    · rename_i hsent
      rw [hsent.1, opens_append, passed]
      simp [opens]
    · exact hs.opens.append_left _
  · have hother := h side.other
    simpa [Pair.update, passed, hs.opened] using hother

theorem opened_onConnectionOpen (s : Proxy) (id : ProxyID) (connects : Bool) :
    (s.onConnectionOpen id connects).opened = s.opened ++ [id] := by
  cases connects <;> rfl

/-- A proxy acts on a message: what it opens is the next that the other has passed on. -/
theorem Numbered.message (h : x.Numbered) {message : Message} {messages : List Message}
    (hincoming : x.incoming side = message :: messages) (connects : Bool) :
    Allocates side ((x.proxy side).step (.message message connects)) (x.passed side) ∧
      (((x.proxy side).step (.message message connects)).opened ++ opens messages).Sublist
        (x.passed side.other) := by
  have hpassed : x.passed side.other = (x.proxy side).opened ++ opens (message :: messages) := by
    rw [passed, Side.other_other, hincoming]
  have hsettles (t : Proxy) (hs : Settles (x.proxy side) t) :
      Allocates side t (x.passed side) ∧
        (t.opened ++ opens messages).Sublist (x.passed side.other) := by
    refine ⟨(h side).settles_self hs, ?_⟩
    rw [hpassed, hs.opened]
    exact ((List.sublist_cons_self _ _).filterMap _).append_left _
  simp only [Proxy.step]
  split
  · exact hsettles _ (.refl _)
  · split
    · exact hsettles _ (.refl _)
    · cases message with
      | «open» id address =>
          have hopens : x.passed side.other = (x.proxy side).opened ++ id :: opens messages := hpassed
          have hmem : id ∈ x.passed side.other := by
            rw [hopens]
            exact List.mem_append_right _ List.mem_cons_self
          have hother := h side.other
          obtain ⟨i, -, hi⟩ := hother.own id (List.mem_append_left _ hmem)
          have hnew : id ∉ (x.proxy side).opened := by
            have hnodup := hother.nodup.of_append_left
            rw [hopens] at hnodup
            intro hid
            exact (List.nodup_append.mp hnodup).2.2 id hid id List.mem_cons_self rfl
          refine ⟨(h side).onConnectionOpen ⟨i, hi⟩ hnew connects, ?_⟩
          rw [hopens, onMessage, opened_onConnectionOpen, List.append_assoc]
          rfl
      | close id => exact hsettles _ (.initiateConnectionClose _ id)
      | data id isReliable bytes => exact hsettles _ (.use _ _)

/-- The next message is taken off the wire. -/
theorem Numbered.receive (h : x.Numbered) (connects : Bool) :
    (x.step (.receive side connects)).Numbered := by
  simp only [step]
  split
  · exact h
  · rename_i message messages hincoming
    split
    · exact h
    · obtain ⟨hside, hsub⟩ := h.message hincoming connects
      apply numbered_of_side side
      · simpa [Pair.update, passed] using hside
      · simp only [passed, Pair.update, Side.other_other, Function.update_self,
          Function.update_of_ne (Side.other_ne side)]
        exact (h side.other).settles (.refl _) (hsub.append_right _)

/-- **One step.** -/
theorem Numbered.step (h : x.Numbered) {event : PairEvent} (hfresh : x.Fresh event) :
    (x.step event).Numbered := by
  cases event with
  | accept side => exact h.accept hfresh
  | packet side c data isReliable => exact h.packet c data isReliable
  | closed side c => exact h.settles (Settles.closeUser .closeConnection _ c).ite_closed
  | tick side ready arrives => exact h.tick ready arrives
  | receive side connects => exact h.receive connects
  | close side => exact h.settles (Settles.close _).ite_closed

theorem allocates_empty (side : Side) (options : ProxyOptions) (n : ℕ) :
    Allocates side { options, nextProxyID := proxyID side n, allocated := n } [] := by
  refine ⟨rfl, ?_, ?_, ?_, List.nodup_nil, rfl⟩ <;> simp [opens]

theorem numbered_open (options : Side → ProxyOptions) (connects : Bool) :
    (Pair.open options connects).Numbered := by
  have hwire := (allocates_empty .connecting (options .connecting) 1).settles_self
    (.insert _ 0 ⟨.wire, none⟩ (by simp))
  apply numbered_of_side .connecting
  · cases connects with
    | false => exact hwire
    | true =>
        -- The wire calls back its entry, which has the first number.
        refine { hwire with handlers := ?_, overwritten := rfl }
        intro h id hid
        have hlookup : ((∅ : ExtTreeMap Handle ProxyID).insert 0 0)[h]? = some id := hid
        simp only [ExtTreeMap.getElem?_insert, LawfulEqCmp.compare_eq_iff_eq] at hlookup
        split at hlookup
        · obtain rfl := Option.some.inj hlookup
          exact .inl ⟨0, Nat.one_pos, by decide⟩
        · simp at hlookup
  · cases connects <;> exact allocates_empty .accepting (options .accepting) 0

/-- **Identifiers.**  As long as neither proxy gives more than `2 ^ 24` numbers, the wire of the one
that connected among them, no entry is written whose connection is still there, whatever happens. -/
theorem identifiers_free (options : Side → ProxyOptions) (connects : Bool) (events : List PairEvent)
    (h : Along step Fresh (Pair.open options connects) events) (side : Side) :
    ((run step (Pair.open options connects) events).proxy side).overwritten = [] := by
  have hnumbered := run_invariant Numbered (fun x event hx hfresh => hx.step hfresh)
    (numbered_open options connects) h
  exact (hnumbered side).overwritten

/-- A client connects to either side. -/
def twoClients : List PairEvent :=
  [.accept .connecting, .packet .connecting 1
      (leBytes 8 13 ++ (ProxyAddress.mk 0x0100007F#32 0x5000#16).bytes) true,
    .accept .accepting, .packet .accepting 0 (leBytes 8 42) true, .tick .connecting true true,
    .receive .accepting true, .accept .accepting]

theorem identifiers_free_twoClients :
    Along step Fresh (Pair.open (fun _ => {}) true) twoClients ∧
      ((run step (Pair.open (fun _ => {}) true) twoClients).proxy .accepting).overwritten = [] :=
  ⟨by decide +kernel, identifiers_free (fun _ => {}) true twoClients (by decide +kernel) .accepting⟩

/-- A proxy that has connected, after it has accepted a number of connections. -/
def accepted (n : ℕ) : Proxy :=
  (run step (Pair.open (fun _ => {}) true)
    (List.replicate n (.accept .connecting))).proxy .connecting

theorem accepted_succ {n : ℕ} (hclosed : (accepted n).closed = false) :
    accepted (n + 1) = (accepted n).onSocketAccept := by
  unfold accepted at hclosed ⊢
  rw [List.replicate_succ', run_append, run_cons, run_nil]
  generalize run step (Pair.open (fun _ => {}) true) (List.replicate n (.accept .connecting)) = x
    at hclosed ⊢
  simp [step, Pair.update, Proxy.step, hclosed]

/-- The wire stays, however many connections are accepted. -/
theorem accepted_wire (n : ℕ) :
    (accepted n).closed = false ∧ (accepted n).nextProxyID = proxyID .connecting (n + 1) ∧
      (accepted n).wire = some 0 ∧ (accepted n).handlers[0]? = some 0 ∧ 0 < (accepted n).handles := by
  induction n with
  | zero => exact ⟨rfl, by decide, rfl, by decide, Nat.one_pos⟩
  | succ n ih =>
      obtain ⟨hclosed, hnext, hwire, hhandler, hpos⟩ := ih
      rw [accepted_succ hclosed]
      refine ⟨hclosed, ?_, hwire, ?_, Nat.succ_pos _⟩
      · simp only [Proxy.onSocketAccept]
        rw [hnext, incrementProxyID_proxyID]
      · simp only [Proxy.onSocketAccept, enter, ExtTreeMap.getElem?_insert,
          LawfulEqCmp.compare_eq_iff_eq]
        rw [if_neg hpos.ne', hhandler]

/-- After a full turn the next connection gets the number of the wire. -/
theorem overwritten_of_turn {n : ℕ} (hpos : 0 < n) (hturn : proxyID .connecting n = 0) :
    0 ∈ (accepted n).overwritten := by
  cases n with
  | zero => omega
  | succ n =>
      obtain ⟨hclosed, hnext, -, hhandler, -⟩ := accepted_wire n
      have hlive : (accepted n).isLive 0 = true := isLive_iff.mpr ⟨0, hhandler⟩
      rw [accepted_succ hclosed]
      simp only [Proxy.onSocketAccept, enter, hnext, hturn]
      rw [if_pos hlive]
      exact List.mem_cons_self

/-- A proxy that has connected accepts `2 ^ 24` connections, and the last of them gets the entry of
the wire, which is still there. -/
theorem identifiers_wrap :
    (accepted (2 ^ 24)).wire = some 0 ∧ (accepted (2 ^ 24)).handlers[0]? = some 0 ∧
      0 ∈ (accepted (2 ^ 24)).overwritten := by
  obtain ⟨-, -, hwire, hhandler, -⟩ := accepted_wire (2 ^ 24)
  exact ⟨hwire, hhandler, overwritten_of_turn (Nat.two_pow_pos 24) (by decide)⟩

end Pair

end Proxy
end MrUDP
