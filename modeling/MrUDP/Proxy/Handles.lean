import MrUDP.Proxy.Proxy

/-!
# A proxy and dead connections

`mrudp/Proxy.cpp`.  A proxy that was connected to has its wire twice, in the entry and in
`proxy->wire`.  When the wire closes, the entry's is closed and forgotten, and the other is used by
the next `proxy_tick`.

`close` closes the connections of the entries without forgetting them first, so the entry that is
called back closes its connection again.  An entry that is written while another connection calls it
back has the same fate.

## Main definitions

* `Proxy.Sound`: an entry's connection calls it back, and is not dead.
* `Proxy.Careful`: what may happen to a proxy.
* `Proxy.wire_usable`: in runs of that kind the wire is not dead, and nothing dead is used.
* `Proxy.wire_dead`: a wire that closes.
-/

namespace MrUDP
open Wire Machine
open Std (ExtTreeMap LawfulEqCmp)

namespace Proxy

variable {s t : Proxy} {h : Handle} {id : ProxyID} {entry : ProxyConnection}

/-- An entry's connection calls it back, and is not dead; no two connections call back the same
entry; and the wire is not dead. -/
structure Sound (s : Proxy) : Prop where
  held : ∀ (id : ProxyID) (entry : ProxyConnection) (h : Handle), s.connections[id]? = some entry →
    entry.connection = some h → s.handlers[h]? = some id ∧ h ∉ s.dead
  called : ∀ (h : Handle) (id : ProxyID), s.handlers[h]? = some id →
    h < s.handles ∧ ∃ entry, s.connections[id]? = some entry
  once : ∀ (h h' : Handle) (id : ProxyID), s.handlers[h]? = some id → s.handlers[h']? = some id →
    h = h'
  known : ∀ h ∈ s.dead, h < s.handles
  wire : ∀ h ∈ s.wire, h ∉ s.dead ∧ h < s.handles
  misused : s.misused = []

theorem Sound.fresh (hs : Sound s) : s.handles ∉ s.dead := by
  intro hmem
  exact lt_irrefl _ (hs.known _ hmem)

/-! ## Entries -/

/-- An entry is written, with a connection that calls it back. -/
theorem Sound.insert (hs : Sound s) (id : ProxyID) (entry : ProxyConnection)
    (hentry : ∀ h, entry.connection = some h → s.handlers[h]? = some id ∧ h ∉ s.dead) :
    Sound { s with connections := s.connections.insert id entry } := by
  refine { hs with held := ?_, called := ?_ }
  · intro k e c hk hc
    simp only [ExtTreeMap.getElem?_insert, LawfulEqCmp.compare_eq_iff_eq] at hk
    split at hk
    · obtain rfl := Option.some.inj hk
      subst k
      exact hentry c hc
    · exact hs.held k e c hk hc
  · intro c k hc
    obtain ⟨hlt, e, he⟩ := hs.called c k hc
    simp only [ExtTreeMap.getElem?_insert, LawfulEqCmp.compare_eq_iff_eq]
    refine ⟨hlt, ?_⟩
    split
    · exact ⟨entry, rfl⟩
    · exact ⟨e, he⟩

/-- An entry is written for a new connection, where none is called back. -/
theorem Sound.enter (hs : Sound s) (id : ProxyID) (entry : ProxyConnection)
    (hlive : s.isLive id = false)
    (hentry : entry.connection = some s.handles ∨ entry.connection = none) :
    Sound (s.enter id entry) := by
  have hnone : ∀ h : Handle, s.handlers[h]? ≠ some id := by
    intro h hid
    simp [isLive_iff.mpr ⟨h, hid⟩] at hlive
  have hhandlers (c : Handle) :
      (s.enter id entry).handlers[c]? = if s.handles = c then some id else s.handlers[c]? := by
    simp only [Proxy.enter, ExtTreeMap.getElem?_insert, LawfulEqCmp.compare_eq_iff_eq]
  have hconnections (k : ProxyID) :
      (s.enter id entry).connections[k]? = if id = k then some entry else s.connections[k]? := by
    simp only [Proxy.enter, ExtTreeMap.getElem?_insert, LawfulEqCmp.compare_eq_iff_eq]
  refine ⟨?_, ?_, ?_, ?_, ?_, hs.misused⟩
  · intro k e c hk hc
    rw [hconnections] at hk
    rw [hhandlers]
    split at hk
    · obtain rfl := Option.some.inj hk
      subst k
      obtain hnew | hnull := hentry
      · obtain rfl := Option.some.inj (hnew.symm.trans hc)
        exact ⟨if_pos rfl, hs.fresh⟩
      · simp [hnull] at hc
    · obtain ⟨hcalled, hdead⟩ := hs.held k e c hk hc
      have hlt := (hs.called c k hcalled).1
      rw [if_neg hlt.ne']
      exact ⟨hcalled, hdead⟩
  · intro c k hc
    rw [hhandlers] at hc
    rw [hconnections]
    split at hc
    · rename_i hnew
      obtain rfl := Option.some.inj hc
      exact ⟨hnew ▸ Nat.lt_succ_self _, entry, if_pos rfl⟩
    · obtain ⟨hlt, e, he⟩ := hs.called c k hc
      refine ⟨Nat.lt_succ_of_lt hlt, e, ?_⟩
      rw [if_neg (by rintro rfl; exact hnone c hc), he]
  · intro c c' k hc hc'
    rw [hhandlers] at hc hc'
    split at hc <;> split at hc'
    · rename_i hnew hnew'
      exact hnew.symm.trans hnew'
    · obtain rfl := Option.some.inj hc
      exact absurd hc' (hnone c')
    · obtain rfl := Option.some.inj hc'
      exact absurd hc (hnone c)
    · exact hs.once c c' k hc hc'
  · intro c hc
    exact Nat.lt_succ_of_lt (hs.known c hc)
  · intro c hc
    obtain ⟨hdead, hlt⟩ := hs.wire c hc
    exact ⟨hdead, Nat.lt_succ_of_lt hlt⟩

/-! ## Closing -/

@[simp] theorem closeConnection_none (s : Proxy) : s.closeConnection none = s := rfl

/-- A connection that calls nothing back is closed. -/
theorem closeConnection_of_silent (hlive : h ∉ s.dead) (hsilent : s.handlers[h]? = none) :
    s.closeConnection (some h) = { s with dead := h :: s.dead } := by
  simp only [closeConnection, closeConnectionWithin, if_neg hlive, closeUser, hsilent]

/-- A connection that calls back an entry without a connection is closed. -/
theorem closeConnection_of_empty (hlive : h ∉ s.dead) (hid : s.handlers[h]? = some id)
    (hentry : s.connections[id]? = some entry) (hnone : entry.connection = none) :
    s.closeConnection (some h) =
      (setConnection { s with handlers := s.handlers.erase h, dead := h :: s.dead } id none).onClosed
        id := by
  simp only [closeConnection, closeConnectionWithin, if_neg hlive, closeUser, hid,
    onConnectionClose, hentry, hnone]

/-- A connection does not call back any more, and its entry, if it is kept, has no connection. -/
structure Released (s t : Proxy) (h : Handle) (id : ProxyID) : Prop where
  handlers : t.handlers = s.handlers.erase h
  handles : t.handles = s.handles
  wire : t.wire = s.wire
  dead : ∀ c ∈ t.dead, c = h ∨ c ∈ s.dead
  misused : t.misused = s.misused
  others : ∀ k, id ≠ k → t.connections[k]? = s.connections[k]?
  entry : ∀ entry, t.connections[id]? = some entry → entry.connection = none

theorem dead_onClosed (s : Proxy) (id : ProxyID) : (s.onClosed id).dead = s.dead := by
  obtain ⟨closes, connections, heq, -⟩ := s.onClosed_eq id
  rw [heq]

theorem Released.onClosed (hr : Released s t h id) : Released s (t.onClosed id) h id := by
  obtain ⟨closes, connections, heq, -, rfl | rfl⟩ := t.onClosed_eq id <;> rw [heq]
  · exact { hr with }
  · refine { hr with others := ?_, entry := ?_ }
    · intro k hk
      simp only [ExtTreeMap.getElem?_erase, LawfulEqCmp.compare_eq_iff_eq, if_neg hk]
      exact hr.others k hk
    · intro entry hentry
      simp at hentry

theorem Released.setConnection (hr : Released s t h id) :
    Released s (t.setConnection id none) h id := by
  refine { hr with others := ?_, entry := ?_ }
  · intro k hk
    rw [getElem?_setConnection, if_neg hk]
    exact hr.others k hk
  · intro e he
    rw [getElem?_setConnection, if_pos rfl] at he
    obtain ⟨_, -, rfl⟩ := Option.map_eq_some_iff.mp he
    rfl

/-- A connection stops calling back, and may be dead. -/
theorem released_setConnection {dead : List Handle} (hdead : ∀ c ∈ dead, c = h ∨ c ∈ s.dead) :
    Released s (setConnection { s with handlers := s.handlers.erase h, dead } id none) h id := by
  refine ⟨rfl, rfl, rfl, hdead, rfl, ?_, ?_⟩
  · intro k hk
    rw [getElem?_setConnection, if_neg hk]
  · intro e he
    rw [getElem?_setConnection, if_pos rfl] at he
    obtain ⟨_, -, rfl⟩ := Option.map_eq_some_iff.mp he
    rfl

theorem Released.sound (hr : Released s t h id) (hs : Sound s) (hid : s.handlers[h]? = some id)
    (hwire : s.wire = some h → h ∉ t.dead) : Sound t := by
  have hhandlers (c : Handle) : t.handlers[c]? = if h = c then none else s.handlers[c]? := by
    rw [hr.handlers]
    simp only [ExtTreeMap.getElem?_erase, LawfulEqCmp.compare_eq_iff_eq]
  refine ⟨?_, ?_, ?_, ?_, ?_, ?_⟩
  · intro k e c hk hc
    by_cases hkey : id = k
    · subst k
      simp [hr.entry e hk] at hc
    · rw [hr.others k hkey] at hk
      obtain ⟨hcalled, hdead⟩ := hs.held k e c hk hc
      have hne : h ≠ c := by
        rintro rfl
        exact hkey (Option.some.inj (hid.symm.trans hcalled))
      rw [hhandlers, if_neg hne]
      refine ⟨hcalled, ?_⟩
      intro hmem
      exact (hr.dead c hmem).elim hne.symm hdead
  · intro c k hc
    rw [hhandlers] at hc
    split at hc
    · simp at hc
    · rename_i hne
      obtain ⟨hlt, e, he⟩ := hs.called c k hc
      rw [hr.handles]
      refine ⟨hlt, e, ?_⟩
      rw [hr.others k, he]
      rintro rfl
      exact hne (hs.once h c id hid hc)
  · intro c c' k hc hc'
    rw [hhandlers] at hc hc'
    split at hc
    · simp at hc
    · split at hc'
      · simp at hc'
      · exact hs.once c c' k hc hc'
  · intro c hc
    rw [hr.handles]
    obtain rfl | hc := hr.dead c hc
    · exact (hs.called c id hid).1
    · exact hs.known c hc
  · intro c hc
    rw [hr.wire] at hc
    obtain ⟨hdead, hlt⟩ := hs.wire c hc
    rw [hr.handles]
    refine ⟨?_, hlt⟩
    intro hmem
    obtain rfl | hold := hr.dead c hmem
    · exact hwire hc hmem
    · exact hdead hold
  · rw [hr.misused, hs.misused]

/-! ## Steps -/

/-- The connection of an entry is not the wire at the same time. -/
def Apart (s : Proxy) (id : ProxyID) : Prop := s.connection id = none ∨ s.connection id ≠ s.wire

instance (s : Proxy) (id : ProxyID) : Decidable (s.Apart id) :=
  inferInstanceAs (Decidable (_ ∨ _))

/-- What may happen to a proxy: no entry is written that a connection calls back, no connection
closes that is both the wire and an entry's, and no entry has a connection when the proxy closes. -/
def Careful (s : Proxy) : ProxyEvent → Prop
  | .accept => s.isLive s.nextProxyID = false
  | .closed h => ∀ id ∈ s.handlers[h]?, s.Apart id
  | .message (.open id _) _ => s.isLive id = false
  | .message (.close id) _ => s.Apart id
  | .close => ∀ id ∈ s.connections.keys, s.connection id = none
  | .packet _ _ _ | .tick _ | .message (.data _ _ _) _ => True

instance : ∀ (s : Proxy) (event : ProxyEvent), Decidable (s.Careful event)
  | s, .accept => inferInstanceAs (Decidable (s.isLive s.nextProxyID = false))
  | s, .closed h => Option.decidableForallMem s.handlers[h]?
  | s, .message (.open id _) _ => inferInstanceAs (Decidable (s.isLive id = false))
  | s, .message (.close id) _ => inferInstanceAs (Decidable (s.Apart id))
  | s, .close => List.decidableBAll _ s.connections.keys
  | _, .packet _ _ _ => isTrue trivial
  | _, .tick _ => isTrue trivial
  | _, .message (.data _ _ _) _ => isTrue trivial

theorem connection_eq (hentry : s.connections[id]? = some entry) :
    s.connection id = entry.connection := by
  rw [connection, hentry]
  rfl

theorem Sound.connection (hs : Sound s) : ∀ h ∈ s.connection id, h ∉ s.dead := by
  intro h hh
  obtain ⟨entry, hentry, hc⟩ := Option.bind_eq_some_iff.mp hh
  exact (hs.held id entry h hentry hc).2

theorem Sound.closeUser (hs : Sound s) (hapart : ∀ id ∈ s.handlers[h]?, s.Apart id) :
    Sound (closeUser closeConnection s h) := by
  unfold Proxy.closeUser
  cases hid : s.handlers[h]? with
  | none => exact hs
  | some id =>
      obtain ⟨-, entry, hentry⟩ := hs.called h id hid
      simp only [onConnectionClose, hentry]
      cases hc : entry.connection with
      | none =>
          refine (released_setConnection fun c hc => .inr hc).onClosed.sound hs hid ?_
          intro hwire
          rw [dead_onClosed]
          exact (hs.wire h hwire).1
      | some c =>
          obtain ⟨hcalled, hdead⟩ := hs.held id entry c hentry hc
          obtain rfl := hs.once h c id hid hcalled
          rw [@closeConnection_of_silent { s with handlers := s.handlers.erase h } h hdead (by simp)]
          refine (released_setConnection fun c hc => List.mem_cons.mp hc).onClosed.sound hs hid ?_
          intro hwire
          rw [hid] at hapart
          obtain hnone | hne := hapart id rfl
          · simp [connection_eq hentry, hc] at hnone
          · exact absurd (by rw [connection_eq hentry, hc, hwire]) hne

theorem Sound.setConnection (hs : Sound s) : Sound (s.setConnection id none) := by
  refine { hs with held := ?_, called := ?_ }
  · intro k e c hk hc
    rw [getElem?_setConnection] at hk
    split at hk
    · obtain ⟨_, -, rfl⟩ := Option.map_eq_some_iff.mp hk
      simp at hc
    · exact hs.held k e c hk hc
  · intro c k hc
    obtain ⟨hlt, e, he⟩ := hs.called c k hc
    rw [getElem?_setConnection, he]
    refine ⟨hlt, ?_⟩
    split
    · exact ⟨_, rfl⟩
    · exact ⟨e, rfl⟩

theorem Sound.initiateConnectionClose (hs : Sound s) (hapart : s.Apart id) :
    Sound (s.initiateConnectionClose id) := by
  unfold Proxy.initiateConnectionClose
  split
  · exact hs
  · rename_i entry hentry
    cases hc : entry.connection with
    | none => exact hs.setConnection
    | some h =>
        obtain ⟨hid, hdead⟩ := hs.held id entry h hentry hc
        have hempty : (s.setConnection id none).connections[id]? =
            some { entry with connection := none } := by
          rw [getElem?_setConnection, if_pos rfl, hentry]
          rfl
        rw [closeConnection_of_empty (s := s.setConnection id none) hdead hid hempty rfl]
        have hr : Released s (Proxy.setConnection
            { s with handlers := s.handlers.erase h, dead := h :: s.dead } id none) h id :=
          released_setConnection fun c hc => List.mem_cons.mp hc
        refine hr.setConnection.onClosed.sound hs hid ?_
        intro hwire
        obtain hnone | hne := hapart
        · simp [connection_eq hentry, hc] at hnone
        · exact absurd (by rw [connection_eq hentry, hc, hwire]) hne

theorem Sound.queue (hs : Sound s) (message : Message) : Sound (s.queue message) :=
  { hs with }

theorem Sound.onProxyPacket (hs : Sound s) (data : Bytes) (isReliable : Bool) :
    Sound (s.onProxyPacket id data isReliable) := by
  unfold Proxy.onProxyPacket
  split
  · exact hs
  · exact hs.queue _

theorem Sound.onModePacket (hs : Sound s) (hentry : s.connections[id]? = some entry) (data : Bytes)
    (isReliable : Bool) : Sound (s.onModePacket id entry data isReliable) := by
  have hheld (h : Handle) (hc : entry.connection = some h) := hs.held id entry h hentry hc
  unfold Proxy.onModePacket
  split
  · exact hs
  · split
    · have hset := hs.insert id { entry with mode := .wire } hheld
      refine { hset with wire := ?_ }
      intro h hc
      obtain ⟨hcalled, hdead⟩ := hheld h hc
      exact ⟨hdead, (hs.called h id hcalled).1⟩
    · split
      · split
        · exact hs
        · exact ((hs.queue _).insert id { entry with mode := .connection } hheld).onProxyPacket _ _
      · exact hs

theorem Sound.onConnectionPacket (hs : Sound s) (data : Bytes) (isReliable : Bool) :
    Sound (s.onConnectionPacket id data isReliable) := by
  unfold Proxy.onConnectionPacket
  split
  · exact hs
  · rename_i entry hentry
    split
    · exact hs
    · split
      · exact hs.onModePacket hentry data isReliable
      · exact hs
      · exact hs.onProxyPacket data isReliable

theorem Sound.tick (hs : Sound s) (ready : Bool) : Sound (s.tick ready) := by
  have huse : s.use s.wire = s := use_eq fun h hh => (hs.wire h hh).1
  unfold Proxy.tick
  split
  · exact hs
  · rw [huse]
    split
    · dsimp only
      rw [huse]
      exact { hs with }
    · exact hs

theorem Sound.onSocketAccept (hs : Sound s) (hlive : s.isLive s.nextProxyID = false) :
    Sound s.onSocketAccept := by
  obtain ⟨hheld, hcalled, honce, hknown, hwire, hmisused⟩ :=
    hs.enter s.nextProxyID ⟨.none, some s.handles⟩ hlive (.inl rfl)
  exact ⟨hheld, hcalled, honce, hknown, hwire, hmisused⟩

theorem Sound.onConnectionOpen (hs : Sound s) (hlive : s.isLive id = false) (connects : Bool) :
    Sound (s.onConnectionOpen id connects) := by
  have hrecord : Sound { s with opened := s.opened ++ [id] } :=
    { hs with }
  unfold Proxy.onConnectionOpen
  dsimp only
  split
  · exact hrecord.enter id _ hlive (.inl rfl)
  · obtain ⟨hheld, hcalled, honce, hknown, hwire, hmisused⟩ :=
      hrecord.insert id ⟨.connection, none⟩ (by simp)
    exact ⟨hheld, hcalled, honce, hknown, hwire, hmisused⟩

/-! ## The end -/

/-- Entries without a connection have nothing to close. -/
theorem foldl_closeConnection (hnull : ∀ id, s.connection id = none) (ids : List ProxyID) :
    ids.foldl (fun s id => s.closeConnection (s.connection id)) s = s := by
  induction ids with
  | nil => rfl
  | cons id ids ih => rw [List.foldl_cons, hnull, closeConnection_none, ih]

/-- The wire is closed, and no entry has a connection. -/
theorem Sound.closeWire (hs : Sound s) (hnull : ∀ id, s.connection id = none) :
    (s.closeConnection s.wire).misused = [] ∧
      ∀ id, (s.closeConnection s.wire).connection id = none := by
  cases hw : s.wire with
  | none => exact ⟨hs.misused, hnull⟩
  | some w =>
      have hdead : w ∉ s.dead := (hs.wire w hw).1
      cases hid : s.handlers[w]? with
      | none =>
          rw [closeConnection_of_silent hdead hid]
          exact ⟨hs.misused, hnull⟩
      | some id =>
          obtain ⟨-, entry, hentry⟩ := hs.called w id hid
          have hnone : entry.connection = none := by rw [← connection_eq hentry, hnull]
          rw [closeConnection_of_empty hdead hid hentry hnone]
          have hr : Released s (Proxy.setConnection
              { s with handlers := s.handlers.erase w, dead := w :: s.dead } id none) w id :=
            released_setConnection fun c hc => List.mem_cons.mp hc
          refine ⟨hr.onClosed.misused.trans hs.misused, ?_⟩
          intro k
          by_cases hk : id = k
          · subst k
            exact Option.bind_eq_none_iff.mpr hr.onClosed.entry
          · rw [Proxy.connection, hr.onClosed.others k hk]
            exact hnull k

/-- A proxy none of whose entries has a connection closes only its wire. -/
theorem Sound.close (hs : Sound s) (hnull : ∀ id ∈ s.connections.keys, s.connection id = none) :
    s.close.wire = none ∧ s.close.misused = [] ∧ s.close.closed = true := by
  have hall (id : ProxyID) : s.connection id = none := by
    by_cases hmem : id ∈ s.connections.keys
    · exact hnull id hmem
    · rw [ExtTreeMap.mem_keys] at hmem
      rw [Proxy.connection, ExtTreeMap.getElem?_eq_none hmem]
      rfl
  obtain ⟨hmisused, hconnection⟩ := hs.closeWire hall
  unfold Proxy.close
  dsimp only
  rw [foldl_closeConnection]
  · exact ⟨rfl, hmisused, rfl⟩
  · exact hconnection

/-! ## Runs -/

/-- The wire is not dead and nothing dead has been used, which goes on as long as the proxy is not
closed. -/
structure Usable (s : Proxy) : Prop where
  wire : ∀ h ∈ s.wire, h ∉ s.dead
  misused : s.misused = []
  sound : s.closed = false → Sound s

theorem Sound.usable (hs : Sound s) : Usable s :=
  ⟨fun h hh => (hs.wire h hh).1, hs.misused, fun _ => hs⟩

theorem sound_open (options : ProxyOptions) (connects : Option Bool) :
    Sound (Proxy.open options connects) := by
  have hempty (id : ProxyID) (n : ℕ) : Sound { options, nextProxyID := id, allocated := n } := by
    refine ⟨?_, ?_, ?_, ?_, ?_, rfl⟩ <;> simp
  cases connects with
  | none => exact hempty _ _
  | some connects =>
      cases connects with
      | false =>
          exact (hempty (incrementProxyID 0) 1).insert 0 ⟨.wire, none⟩ (by simp)
      | true =>
          have henter := (hempty (incrementProxyID 0) 1).enter 0 ⟨.wire, none⟩ rfl (.inr rfl)
          refine { henter with wire := ?_ }
          intro h hh
          obtain rfl := Option.some.inj hh
          exact ⟨List.not_mem_nil, Nat.one_pos⟩

theorem Usable.step (h : Usable s) {event : ProxyEvent} (hcareful : s.Careful event) :
    Usable (s.step event) := by
  unfold Proxy.step
  cases hclosed : s.closed with
  | true => exact h
  | false =>
      have hs : Sound s := h.sound hclosed
      simp only [Bool.false_eq_true, if_false]
      cases event with
      | accept => exact (hs.onSocketAccept hcareful).usable
      | packet c data isReliable =>
          dsimp only
          split
          · exact h
          · exact (hs.onConnectionPacket data isReliable).usable
      | closed c => exact (hs.closeUser hcareful).usable
      | tick ready => exact (hs.tick ready).usable
      | message message connects =>
          dsimp only
          split
          · exact h
          · cases message with
            | «open» id address => exact (hs.onConnectionOpen hcareful connects).usable
            | close id => exact (hs.initiateConnectionClose hcareful).usable
            | data id isReliable bytes =>
                simp only [onMessage]
                rwa [use_eq hs.connection]
      | close =>
          obtain ⟨hwire, hmisused, hgone⟩ := hs.close hcareful
          exact ⟨by simp [hwire], hmisused, by simp [hgone]⟩

/-- **Dead connections.**  Whatever happens to a proxy, as long as no entry is written that is called
back, no connection closes that is both the wire and an entry's, and no entry has a connection when
the proxy closes, its wire is not dead and nothing dead has been used. -/
theorem wire_usable (options : ProxyOptions) (connects : Option Bool) (events : List ProxyEvent)
    (h : Along step Careful (Proxy.open options connects) events) :
    let s := run step (Proxy.open options connects) events
    (∀ h ∈ s.wire, h ∉ s.dead) ∧ s.misused = [] := by
  have husable := run_invariant Usable (fun s event hs hcareful => hs.step hcareful)
    (sound_open options connects).usable h
  exact ⟨husable.wire, husable.misused⟩

/-- The packet that a client begins with. -/
def clientMagic : Bytes := leBytes 8 13 ++ (ProxyAddress.mk 0x0100007F#32 0x5000#16).bytes

/-- A client connects to a proxy that has a wire, is served, and is closed by the other side. -/
def oneClient : List ProxyEvent :=
  [.accept, .packet 1 clientMagic true, .tick true, .message (.data 1 true [7]) true,
    .message (.close 1) true, .close]

theorem wire_usable_oneClient :
    Along step Careful (Proxy.open {} (some true)) oneClient ∧
      (∀ h ∈ (run step (Proxy.open {} (some true)) oneClient).wire,
        h ∉ (run step (Proxy.open {} (some true)) oneClient).dead) ∧
      (run step (Proxy.open {} (some true)) oneClient).misused = [] :=
  ⟨by decide +kernel, wire_usable {} (some true) oneClient (by decide +kernel)⟩

/-- The wire, and then a client, connect to a proxy; the wire closes; and the ticker asks for the
state of the wire, which is gone. -/
def wireCloses : List ProxyEvent :=
  [.accept, .packet 0 (leBytes 8 42) true, .accept, .packet 1 clientMagic true, .closed 0,
    .tick false]

/-- The wire is dead, and has been used. -/
theorem wire_dead :
    (run step (Proxy.open {} none) wireCloses).wire = some 0 ∧
      (run step (Proxy.open {} none) wireCloses).dead = [0] ∧
      (run step (Proxy.open {} none) wireCloses).misused = [0] := by
  decide +kernel

end Proxy
end MrUDP
