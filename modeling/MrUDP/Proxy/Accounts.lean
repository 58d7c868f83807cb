import MrUDP.Proxy.Journal

/-!
# A proxy and its journal

`mrudp/Proxy.cpp`.  What a proxy has is what its journal says: the mode of an entry is what its
connection was taken for, the messages about a number are what its connection has asked for, and
what was sent on a connection is what came about its number.  When a connection has ended, the other
proxy has been told, and a connection about which the other has told has ended.

## Main definitions

* `Proxy.Accounts`: a proxy agrees with its journal, as to data.
* `Proxy.Endings`: the same, as to the end of connections.
* `Proxy.Balanced`: both, kept by everything that happens to a proxy.
-/

namespace MrUDP
open Wire Machine
open Std (ExtTreeMap LawfulEqCmp)

namespace Proxy

/-! ## The invariant -/

/-- A proxy agrees with its journal.  No two connections were made for one number, and those that
call back and those that the entries have are the same; what has been queued about a number is what
its connection has asked for, and nothing if there is none; and what was sent on a connection is
what came about its number, all of it as long as the entry has the connection. -/
structure Accounts (side : Side) (s : Proxy) (j : Journal) : Prop where
  running : s.closed = false ∧ s.moved = false
  called : ∀ (h : Handle) (id : ProxyID), s.handlers[h]? = some id →
    j.number h = some id ∧ h ∉ s.dead ∧ ∃ entry, s.connections[id]? = some entry ∧
      entry.mode = (j.request s.options h).mode ∧ (entry.connection = some h ∨ entry.mode = .wire)
  held : ∀ (id : ProxyID) (entry : ProxyConnection) (h : Handle), s.connections[id]? = some entry →
    entry.connection = some h → s.handlers[h]? = some id
  made : ∀ h, s.handles ≤ h →
    j.number h = none ∧ h ∉ s.dead ∧ j.handed h = [] ∧ j.sent h = []
  once : ∀ h h' id, j.number h = some id → j.number h' = some id → h = h'
  numbers : ∀ h id, j.number h = some id →
    (j.origin h).mode ≠ .connection ∧ Own side s.allocated id ∨
      id ∈ s.opened ∧ ∃ address, j.origin h = .connection address [] ∧ .open id address ∈ j.acted
  traffic : ∀ h id, j.number h = some id →
    traffic id j.queued = (j.request s.options h).messages (j.announces h) id
  silent : ∀ id, (∀ h, j.number h ≠ some id) → Proxy.traffic id j.queued = []
  sent : ∀ h id, j.number h = some id → j.sent h <+: dataOf id j.acted
  current : ∀ h id, s.connection id = some h → j.sent h = dataOf id j.acted

/-- No connection is opened after it has been closed. -/
def Final (messages : List Message) : Prop :=
  ∀ before after id address, messages = before ++ .close id :: after → .open id address ∉ after

theorem Final.append {messages new : List Message} (h : Final messages) (hnew : Final new)
    (hopen : ∀ id address, .open id address ∈ new → .close id ∉ messages) :
    Final (messages ++ new) := by
  intro before after id address hsplit hmem
  obtain ⟨rest, -, hafter⟩ | ⟨rest, hbefore, hafter⟩ := List.append_eq_append_iff.mp hsplit
  · exact hnew rest after id address hafter hmem
  · cases rest with
    | nil => exact hnew [] after id address hafter.symm hmem
    | cons m rest =>
        obtain ⟨rfl, rfl⟩ := List.cons.inj hafter
        obtain hmem | hmem := List.mem_append.mp hmem
        · exact h before rest id address hbefore hmem
        · refine hopen id address hmem ?_
          rw [hbefore]
          exact List.mem_append_right _ List.mem_cons_self

/-- When a connection that was forwarded has ended, the other proxy has been told, and has been told
nothing about its number since; and if the other has told of the end of one, it has ended here. -/
structure Endings (s : Proxy) (j : Journal) : Prop where
  ended : ∀ id, .close id ∈ j.queued → ∃ h, j.number h = some id ∧ s.handlers[h]? = none
  told : ∀ h id, j.number h = some id → s.handlers[h]? = none →
    (j.request s.options h).mode = .connection → .close id ∈ j.queued
  last : Final j.queued
  heeded : ∀ id, .close id ∈ j.acted → ∀ h : Handle, s.handlers[h]? ≠ some id

/-- Both. -/
structure Balanced (side : Side) (s : Proxy) (j : Journal) : Prop where
  accounts : Accounts side s j
  endings : Endings s j

variable {side : Side} {s t : Proxy} {j : Journal} {id : ProxyID} {h : Handle}
  {entry : ProxyConnection}

namespace Accounts

/-- An entry's connection was made for it. -/
theorem number (ha : Accounts side s j) (hh : s.connection id = some h) : j.number h = some id := by
  obtain ⟨entry, hentry, hc⟩ := Option.bind_eq_some_iff.mp hh
  exact (ha.called h id (ha.held id entry h hentry hc)).1

/-- A connection that was made is not a new one. -/
theorem lt (ha : Accounts side s j) (hnumber : j.number h = some id) : h < s.handles := by
  by_contra hle
  simp [(ha.made h (not_lt.mp hle)).1] at hnumber

/-- An entry that is called back has no other connection. -/
theorem own (ha : Accounts side s j) (hh : s.handlers[h]? = some id)
    (hentry : s.connections[id]? = some entry) : ∀ c, entry.connection = some c → c = h := by
  intro c hc
  have hcalled := ha.held id entry c hentry hc
  exact ha.once c h id (ha.called c id hcalled).1 (ha.called h id hh).1

/-- Only the journal and these parts of a proxy matter, and of the entries those with a
connection. -/
theorem mono (ha : Accounts side s j) (hrunning : t.closed = s.closed ∧ t.moved = s.moved)
    (hoptions : t.options = s.options) (hhandlers : t.handlers = s.handlers)
    (hentries : ∀ h k, j.number h = some k → t.connections[k]? = s.connections[k]?)
    (hconnections : ∀ k h, t.connection k = some h → s.connection k = some h)
    (hdead : t.dead = s.dead) (hhandles : t.handles = s.handles)
    (hallocated : t.allocated = s.allocated) (hopened : ∀ id ∈ s.opened, id ∈ t.opened) :
    Accounts side t j where
  __ := ha
  running := ⟨hrunning.1.trans ha.running.1, hrunning.2.trans ha.running.2⟩
  called h id hh := by
    have hcalled := ha.called h id (hhandlers ▸ hh)
    rw [hentries h id hcalled.1, hoptions, hdead]
    exact hcalled
  held id entry h hentry hc := by
    have hh := hconnections id h (Option.bind_eq_some_iff.mpr ⟨entry, hentry, hc⟩)
    obtain ⟨entry, hentry, hc⟩ := Option.bind_eq_some_iff.mp hh
    rw [hhandlers]
    exact ha.held id entry h hentry hc
  made h hh := by
    rw [hdead]
    exact ha.made h (hhandles ▸ hh)
  numbers h id hh := by
    rw [hallocated]
    exact (ha.numbers h id hh).imp_right (.imp_left (hopened id))
  traffic h id hh := by
    rw [hoptions]
    exact ha.traffic h id hh
  current h id hh := ha.current h id (hconnections id h hh)

end Accounts

theorem Endings.congr (he : Endings s j) (hoptions : t.options = s.options)
    (hhandlers : t.handlers = s.handlers) : Endings t j where
  ended := by
    rw [hhandlers]
    exact he.ended
  told := by
    rw [hoptions, hhandlers]
    exact he.told
  last := he.last
  heeded := by
    rw [hhandlers]
    exact he.heeded

/-! ## The end of a connection -/

theorem mem_notice {m : Message} {mode : ProxyMode} (hm : m ∈ notice id mode) : m = .close id := by
  cases mode with
  | connection => exact List.mem_singleton.mp hm
  | none => cases hm
  | wire => cases hm

theorem traffic_notice (k id : ProxyID) (mode : ProxyMode) : traffic k (notice id mode) = [] := by
  cases mode <;> rfl

theorem Accounts.part (ha : Accounts side s j) (hp : Parts s t h id entry)
    (hh : s.handlers[h]? = some id) :
    Accounts side t { j with queued := j.queued ++ notice id entry.mode } := by
  obtain ⟨hnumber, -⟩ := ha.called h id hh
  obtain ⟨dead, connections, heq⟩ := hp.eq
  have hcalled (c : Handle) (k : ProxyID) (hc : t.handlers[c]? = some k) :
      h ≠ c ∧ s.handlers[c]? = some k ∧ id ≠ k := by
    rw [hp.handlers] at hc
    split at hc
    · cases hc
    next hne =>
      refine ⟨hne, hc, ?_⟩
      rintro rfl
      exact hne (ha.once h c id hnumber (ha.called c id hc).1)
  have hentries (k : ProxyID) (e : ProxyConnection) (c : Handle) (hk : t.connections[k]? = some e)
      (hc : e.connection = some c) : id ≠ k ∧ s.connections[k]? = some e := by
    have hne : id ≠ k := by
      rintro rfl
      simp [hp.entry e hk] at hc
    exact ⟨hne, by rwa [hp.others k hne] at hk⟩
  exact
    { running := by
        rw [heq]
        exact ha.running
      called := by
        intro c k hc
        obtain ⟨hne, hc, hid⟩ := hcalled c k hc
        obtain ⟨hk, hlive, e, he, hmode, hconnection⟩ := ha.called c k hc
        refine ⟨hk, ?_, e, ?_, ?_, hconnection⟩
        · intro hdead
          exact (hp.dead c hdead).elim (Ne.symm hne) hlive
        · rwa [hp.others k hid]
        · rw [heq]
          exact hmode
      held := by
        intro k e c hk hc
        obtain ⟨hne, hk⟩ := hentries k e c hk hc
        have hhandler := ha.held k e c hk hc
        rw [hp.handlers, if_neg]
        · exact hhandler
        · rintro rfl
          exact hne (Option.some.inj (hh.symm.trans hhandler))
      made := by
        intro c hc
        have hle : s.handles ≤ c := by
          rw [heq] at hc
          exact hc
        obtain ⟨hk, hlive, hrest⟩ := ha.made c hle
        refine ⟨hk, ?_, hrest⟩
        intro hdead
        obtain rfl | hdead := hp.dead c hdead
        · simp [hk] at hnumber
        · exact hlive hdead
      once := ha.once
      numbers := by
        rw [heq]
        exact ha.numbers
      traffic := by
        intro c k hc
        rw [traffic_append, traffic_notice, List.append_nil, heq]
        exact ha.traffic c k hc
      silent := by
        intro k hk
        rw [traffic_append, traffic_notice, List.append_nil]
        exact ha.silent k hk
      sent := ha.sent
      current := by
        intro c k hc
        obtain ⟨e, he, hec⟩ := Option.bind_eq_some_iff.mp hc
        obtain ⟨-, he⟩ := hentries k e c he hec
        exact ha.current c k (Option.bind_eq_some_iff.mpr ⟨e, he, hec⟩) }

theorem Endings.part (he : Endings s j) (hp : Parts s t h id entry)
    (hnumber : j.number h = some id) (hmode : entry.mode = (j.request s.options h).mode) :
    Endings t { j with queued := j.queued ++ notice id entry.mode } := by
  obtain ⟨dead, connections, heq⟩ := hp.eq
  have hgone (c : Handle) (hc : s.handlers[c]? = none) : t.handlers[c]? = none := by
    rw [hp.handlers]
    split
    · rfl
    · exact hc
  exact
    { ended := by
        intro k hk
        obtain hk | hk := List.mem_append.mp hk
        · obtain ⟨c, hc, hnone⟩ := he.ended k hk
          exact ⟨c, hc, hgone c hnone⟩
        · cases mem_notice hk
          exact ⟨h, hnumber, by rw [hp.handlers, if_pos rfl]⟩
      told := by
        intro c k hc hnone hconnection
        have hrequest : (j.request s.options c).mode = .connection := by
          rw [heq] at hconnection
          exact hconnection
        by_cases hne : h = c
        · subst c
          obtain rfl := Option.some.inj (hnumber.symm.trans hc)
          rw [hmode, hrequest]
          exact List.mem_append_right _ List.mem_cons_self
        · rw [hp.handlers, if_neg hne] at hnone
          exact List.mem_append_left _ (he.told c k hc hnone hrequest)
      last := by
        refine he.last.append ?_ ?_
        · intro before after k address hsplit hopen
          have hmem : .open k address ∈ notice id entry.mode := by
            rw [hsplit]
            exact List.mem_append_right _ (List.mem_cons_of_mem _ hopen)
          cases mem_notice hmem
        · intro k address hopen
          cases mem_notice hopen
      heeded := by
        intro k hk c hc
        rw [hp.handlers] at hc
        split at hc
        · cases hc
        · exact he.heeded k hk c hc }

/-- The library closes a connection. -/
theorem Accounts.exists_parts (ha : Accounts side s j) (hh : s.handlers[h]? = some id) :
    ∃ entry, entry.mode = (j.request s.options h).mode ∧
      Parts s (closeUser closeConnection s h) h id entry := by
  obtain ⟨-, hlive, entry, hentry, hmode, -⟩ := ha.called h id hh
  exact ⟨entry, hmode, parts_closeUser ha.running.2 hh hentry hlive (ha.own hh hentry)⟩

/-- The other proxy closes a connection, if there is one. -/
theorem Accounts.initiateConnectionClose_cases (ha : Accounts side s j) (id : ProxyID) :
    (∃ h entry, s.handlers[h]? = some id ∧ entry.mode = (j.request s.options h).mode ∧
        Parts s (s.initiateConnectionClose id) h id entry) ∨
      s.connection id = none ∧ ∃ connections,
        s.initiateConnectionClose id = { s with connections } ∧
          ∀ k : ProxyID, connections[k]? = s.connections[k]? := by
  cases hentry : s.connections[id]? with
  | none =>
      right
      refine ⟨by simp [connection, hentry], s.connections, ?_, fun _ => rfl⟩
      simp only [initiateConnectionClose, hentry]
  | some entry =>
      cases hc : entry.connection with
      | none =>
          right
          refine ⟨by simp [connection, hentry, hc], (s.setConnection id none).connections, ?_, ?_⟩
          · simp only [initiateConnectionClose, hentry, hc]
            rfl
          · intro k
            rw [getElem?_setConnection]
            split
            · subst k
              rw [hentry, Option.map_some, ← hc]
            · rfl
      | some h =>
          left
          have hh := ha.held id entry h hentry hc
          obtain ⟨-, hlive, e, he, hmode, -⟩ := ha.called h id hh
          obtain rfl := Option.some.inj (hentry.symm.trans he)
          exact ⟨h, entry, hh, hmode,
            parts_initiateConnectionClose ha.running.2 hh hentry hlive hc⟩

/-! ## Packets -/

/-- What a connection asks for is about its number. -/
theorem mem_messages {m : Message} {announces : Bool} {request : Request}
    (hm : m ∈ request.messages announces id) :
    (∃ address, m = .open id address) ∨ ∃ isReliable bytes, m = .data id isReliable bytes := by
  cases request with
  | undecided => cases hm
  | wire => cases hm
  | connection address data =>
      obtain hm | hm := List.mem_append.mp hm
      · left
        cases announces with
        | false => cases hm
        | true => exact ⟨address, List.mem_singleton.mp hm⟩
      · right
        obtain ⟨chunk, -, rfl⟩ := List.mem_map.mp hm
        exact ⟨chunk.1, chunk.2, rfl⟩

/-- What is new in a longer list of messages about a number is about the number. -/
theorem traffic_new {announces : Bool} {request request' : Request} {new : List Message}
    (hnew : request'.messages announces id = request.messages announces id ++ new) (k : ProxyID) :
    traffic k new = if id = k then new else [] := by
  have hsplit := congrArg (traffic k) hnew
  rw [traffic_append, traffic_messages, traffic_messages] at hsplit
  split
  · subst k
    rw [if_pos rfl, if_pos rfl, hnew] at hsplit
    exact (List.append_cancel_left hsplit).symm
  next hk =>
    rw [if_neg hk, if_neg hk] at hsplit
    exact hsplit.symm

section
variable {new : List Message} {chunk : Chunk}

theorem Journal.request_hand (j : Journal) (options : ProxyOptions) (h c : Handle) (chunk : Chunk)
    (queued : List Message) :
    (Journal.hand { j with queued } h chunk).request options c =
      if c = h then (j.request options h).take options chunk else j.request options c := by
  by_cases hc : c = h
  · subst c
    simp [Journal.request, Journal.hand]
  · simp [Journal.request, Journal.hand, hc]

theorem Accounts.hand (ha : Accounts side s j) (hh : s.handlers[h]? = some id)
    (hentry : s.connections[id]? = some entry)
    (hnew : ((j.request s.options h).take s.options chunk).messages (j.announces h) id =
      (j.request s.options h).messages (j.announces h) id ++ new)
    (ht : Takes s t id entry new ((j.request s.options h).take s.options chunk).mode) :
    Accounts side t (Journal.hand { j with queued := j.queued ++ new } h chunk) := by
  obtain ⟨hnumber, hlive, e, he, hmode, hconnection⟩ := ha.called h id hh
  obtain rfl := Option.some.inj (hentry.symm.trans he)
  obtain ⟨⟨connections, wire, rfl⟩, htaken, hothers⟩ := ht
  have hother (c : Handle) (k : ProxyID) (hk : j.number c = some k) : c ≠ h → id ≠ k := by
    rintro hne rfl
    exact hne (ha.once c h id hk hnumber)
  -- An entry has the connection it had.
  have hentries (k : ProxyID) (e : ProxyConnection) (hk : connections[k]? = some e) :
      ∃ e', s.connections[k]? = some e' ∧ e.connection = e'.connection := by
    by_cases hid : id = k
    · subst k
      obtain rfl := Option.some.inj (htaken.symm.trans hk)
      exact ⟨entry, hentry, rfl⟩
    · exact ⟨e, by rwa [show connections[k]? = _ from hothers k hid] at hk, rfl⟩
  exact
    { ha with
      called := by
        intro c k hc
        obtain ⟨hk, hclive, e, he, hemode, hec⟩ := ha.called c k hc
        refine ⟨hk, hclive, ?_⟩
        rw [Journal.request_hand]
        by_cases hne : c = h
        · subst c
          obtain rfl := Option.some.inj (hnumber.symm.trans hk)
          rw [if_pos rfl]
          refine ⟨_, htaken, rfl, ?_⟩
          obtain hc | hwire := hconnection
          · exact .inl hc
          · right
            rw [hmode] at hwire
            cases hrequest : j.request s.options h <;> rw [hrequest] at hwire <;> cases hwire
            rfl
        · rw [if_neg hne, hothers k (hother c k hk hne)]
          exact ⟨e, he, hemode, hec⟩
      held := by
        intro k e c he hc
        obtain ⟨e', he', hsame⟩ := hentries k e he
        exact ha.held k e' c he' (hsame ▸ hc)
      made := by
        intro c hc
        have hne : c ≠ h := by
          rintro rfl
          exact absurd (ha.lt hnumber) (not_lt.mpr hc)
        simpa [Journal.hand, hne] using ha.made c hc
      traffic := by
        intro c k hc
        have htraffic : Proxy.traffic k (j.queued ++ new) =
            Proxy.traffic k j.queued ++ if id = k then new else [] := by
          rw [traffic_append, traffic_new hnew]
        rw [Journal.request_hand]
        refine htraffic.trans ?_
        by_cases hne : c = h
        · subst c
          obtain rfl := Option.some.inj (hnumber.symm.trans hc)
          rw [if_pos rfl, if_pos rfl, ha.traffic h id hnumber, ← hnew]
          rfl
        · rw [if_neg (hother c k hc hne), if_neg hne, List.append_nil, ha.traffic c k hc]
          rfl
      silent := by
        intro k hk
        have hid : id ≠ k := by
          rintro rfl
          exact hk h hnumber
        simp only [Journal.hand, traffic_append, traffic_new hnew, if_neg hid, List.append_nil]
        exact ha.silent k hk
      current := by
        intro c k hc
        obtain ⟨e, he, hec⟩ := Option.bind_eq_some_iff.mp hc
        obtain ⟨e', he', hsame⟩ := hentries k e he
        exact ha.current c k (Option.bind_eq_some_iff.mpr ⟨e', he', hsame ▸ hec⟩) }

theorem Endings.hand (he : Endings s j) (ha : Accounts side s j) (hh : s.handlers[h]? = some id)
    (hnew : ((j.request s.options h).take s.options chunk).messages (j.announces h) id =
      (j.request s.options h).messages (j.announces h) id ++ new)
    (hoptions : t.options = s.options) (hhandlers : t.handlers = s.handlers) :
    Endings t (Journal.hand { j with queued := j.queued ++ new } h chunk) := by
  obtain ⟨hnumber, -⟩ := ha.called h id hh
  have habout {m : Message} (hm : m ∈ new) :
      (∃ address, m = .open id address) ∨ ∃ isReliable bytes, m = .data id isReliable bytes := by
    apply mem_messages
    rw [hnew]
    exact List.mem_append_right _ hm
  have hclose (k : ProxyID) : .close k ∉ new := by
    intro hm
    obtain ⟨_, hm⟩ | ⟨_, _, hm⟩ := habout hm <;> cases hm
  -- The connection is there, so its end has not been told.
  have huntold : .close id ∉ j.queued := by
    intro hm
    obtain ⟨c, hc, hnone⟩ := he.ended id hm
    obtain rfl := ha.once c h id hc hnumber
    simp [hnone] at hh
  exact
    { ended := by
        intro k hk
        obtain hk | hk := List.mem_append.mp hk
        · rw [hhandlers]
          exact he.ended k hk
        · exact absurd hk (hclose k)
      told := by
        intro c k hc hnone hconnection
        rw [hhandlers] at hnone
        have hne : c ≠ h := by
          rintro rfl
          simp [hnone] at hh
        rw [hoptions, Journal.request_hand, if_neg hne] at hconnection
        exact List.mem_append_left _ (he.told c k hc hnone hconnection)
      last := by
        refine he.last.append ?_ ?_
        · intro before after k address hsplit
          refine absurd ?_ (hclose k)
          rw [hsplit]
          exact List.mem_append_right _ List.mem_cons_self
        · intro k address hopen
          obtain ⟨_, hm⟩ | ⟨_, _, hm⟩ := habout hopen <;> cases hm
          exact huntold
      heeded := by
        rw [hhandlers]
        exact he.heeded }

end

/-! ## New connections -/

/-- A connection is made for an entry with a number that is free. -/
structure Enters (s t : Proxy) (id : ProxyID) (mode : ProxyMode) (connection : Option Handle) :
    Prop where
  running : t.closed = s.closed ∧ t.moved = s.moved
  options : t.options = s.options
  handlers : t.handlers = s.handlers.insert s.handles id
  connections : t.connections = s.connections.insert id ⟨mode, connection⟩
  dead : t.dead = s.dead
  handles : t.handles = s.handles + 1
  allocated : s.allocated ≤ t.allocated
  opened : ∀ id ∈ s.opened, id ∈ t.opened

theorem Enters.getElem?_handlers {mode : ProxyMode} {connection : Option Handle}
    (hs : Enters s t id mode connection) (c : Handle) :
    t.handlers[c]? = if c = s.handles then some id else s.handlers[c]? := by
  rw [hs.handlers, ExtTreeMap.getElem?_insert]
  simp only [LawfulEqCmp.compare_eq_iff_eq, @eq_comm _ s.handles c]

theorem Enters.getElem?_connections {mode : ProxyMode} {connection : Option Handle}
    (hs : Enters s t id mode connection) (k : ProxyID) :
    t.connections[k]? = if id = k then some ⟨mode, connection⟩ else s.connections[k]? := by
  rw [hs.connections, ExtTreeMap.getElem?_insert]
  simp only [LawfulEqCmp.compare_eq_iff_eq]

/-- The connection of an entry is the new one, or was there before. -/
theorem Enters.connection_cases {mode : ProxyMode} {connection : Option Handle}
    (hs : Enters s t id mode connection)
    (hconnection : connection = some s.handles ∨ connection = none) {k : ProxyID} {c : Handle}
    (hc : t.connection k = some c) : id = k ∧ c = s.handles ∨ s.connection k = some c := by
  obtain ⟨e, he, hec⟩ := Option.bind_eq_some_iff.mp hc
  rw [hs.getElem?_connections] at he
  split at he
  next heq =>
    obtain rfl := Option.some.inj he
    obtain rfl | rfl := hconnection
    · exact .inl ⟨heq, (Option.some.inj hec).symm⟩
    · cases hec
  · exact .inr (Option.bind_eq_some_iff.mpr ⟨e, he, hec⟩)

section
variable {origin : Request} {connection : Option Handle}

theorem Journal.number_enter (j : Journal) (h c : Handle) (id : ProxyID) (origin : Request) :
    (j.enter h id origin).number c = if c = h then some id else j.number c := by
  simp [Journal.enter, Function.update_apply]

theorem Journal.origin_enter (j : Journal) (h c : Handle) (id : ProxyID) (origin : Request) :
    (j.enter h id origin).origin c = if c = h then origin else j.origin c := by
  simp [Journal.enter, Function.update_apply]

/-- A new connection is taken for what it was made for. -/
theorem Journal.request_enter {options : ProxyOptions} (hhanded : j.handed h = []) (c : Handle)
    (id : ProxyID) (origin : Request) :
    (j.enter h id origin).request options c = if c = h then origin else j.request options c := by
  rw [Journal.request, Journal.origin_enter]
  by_cases hc : c = h
  · subst c
    rw [if_pos rfl, if_pos rfl]
    simp [Journal.enter, hhanded]
  · rw [if_neg hc, if_neg hc]
    rfl

theorem Journal.number_enter_cases {c : Handle} {k : ProxyID}
    (hc : (j.enter h id origin).number c = some k) : c = h ∧ id = k ∨ j.number c = some k := by
  rw [Journal.number_enter] at hc
  split at hc
  next heq => exact .inl ⟨heq, Option.some.inj hc⟩
  · exact .inr hc

section
variable (ha : Accounts side s j) (hs : Enters s t id origin.mode connection)
  (hunused : ∀ h, j.number h ≠ some id)
include ha hs hunused

/-- The new connection calls back for its entry, and those before for theirs. -/
theorem Accounts.called_enter (hconnection : connection = some s.handles ∨ origin = .wire)
    {c : Handle} {k : ProxyID} (hc : t.handlers[c]? = some k) :
    (j.enter s.handles id origin).number c = some k ∧ c ∉ t.dead ∧
      ∃ entry, t.connections[k]? = some entry ∧
        entry.mode = ((j.enter s.handles id origin).request t.options c).mode ∧
        (entry.connection = some c ∨ entry.mode = .wire) := by
  obtain ⟨-, hlive, hhanded, -⟩ := ha.made s.handles le_rfl
  rw [hs.getElem?_handlers] at hc
  rw [Journal.number_enter, hs.dead, hs.options, Journal.request_enter hhanded,
    hs.getElem?_connections]
  split at hc
  next heq =>
    subst c
    obtain rfl := Option.some.inj hc
    rw [if_pos rfl, if_pos rfl, if_pos rfl]
    refine ⟨rfl, hlive, _, rfl, rfl, hconnection.imp_right ?_⟩
    rintro rfl
    rfl
  next hne =>
    obtain ⟨hk, hclive, hentry⟩ := ha.called c k hc
    rw [if_neg hne, if_neg hne, if_neg (show id ≠ k from fun heq => hunused c (heq ▸ hk))]
    exact ⟨hk, hclive, hentry⟩

/-- **A new connection is accounted for.** -/
theorem Accounts.enter (hnothing : dataOf id j.acted = [])
    (hmessages : origin.messages (origin = .undecided) id = [])
    (hconnection : connection = some s.handles ∨ connection = none ∧ origin = .wire)
    (hid : origin.mode ≠ .connection ∧ Own side t.allocated id ∨
      id ∈ t.opened ∧ ∃ address, origin = .connection address [] ∧ .open id address ∈ j.acted) :
    Accounts side t (j.enter s.handles id origin) where
  running := ⟨hs.running.1.trans ha.running.1, hs.running.2.trans ha.running.2⟩
  called _ _ hc := ha.called_enter hs hunused (hconnection.imp_right (·.2)) hc
  held k e c he hc := by
    have hk := hs.connection_cases (hconnection.imp_right (·.1))
      (Option.bind_eq_some_iff.mpr ⟨e, he, hc⟩)
    rw [hs.getElem?_handlers]
    obtain ⟨rfl, rfl⟩ | hk := hk
    · rw [if_pos rfl]
    · obtain ⟨e', he', hc'⟩ := Option.bind_eq_some_iff.mp hk
      rw [if_neg (ha.lt (ha.number hk)).ne]
      exact ha.held k e' c he' hc'
  made c hc := by
    rw [hs.handles] at hc
    rw [Journal.number_enter, if_neg (show c ≠ s.handles by omega), hs.dead]
    exact ha.made c (by omega)
  once c c' k hc hc' := by
    obtain ⟨rfl, rfl⟩ | hc := Journal.number_enter_cases hc
    · obtain ⟨rfl, -⟩ | hc' := Journal.number_enter_cases hc'
      · rfl
      · exact absurd hc' (hunused c')
    · obtain ⟨-, rfl⟩ | hc' := Journal.number_enter_cases hc'
      · exact absurd hc (hunused c)
      · exact ha.once c c' k hc hc'
  numbers c k hc := by
    rw [Journal.origin_enter]
    obtain ⟨rfl, rfl⟩ | hc := Journal.number_enter_cases hc
    · rw [if_pos rfl]
      exact hid
    · rw [if_neg (ha.lt hc).ne]
      exact (ha.numbers c k hc).imp (.imp_right (·.mono hs.allocated)) (.imp_left (hs.opened k))
  traffic c k hc := by
    rw [hs.options, Journal.request_enter (ha.made s.handles le_rfl).2.2.1, Journal.announces,
      Journal.origin_enter]
    obtain ⟨rfl, rfl⟩ | hc := Journal.number_enter_cases hc
    · rw [if_pos rfl, if_pos rfl]
      exact (ha.silent id hunused).trans hmessages.symm
    · rw [if_neg (ha.lt hc).ne, if_neg (ha.lt hc).ne]
      exact ha.traffic c k hc
  silent k hk := by
    refine ha.silent k fun c hc => hk c ?_
    rw [Journal.number_enter, if_neg (ha.lt hc).ne]
    exact hc
  sent c k hc := by
    obtain ⟨rfl, -⟩ | hc := Journal.number_enter_cases hc
    · change j.sent s.handles <+: _
      rw [(ha.made s.handles le_rfl).2.2.2]
      exact List.nil_prefix
    · exact ha.sent c k hc
  current c k hc := by
    obtain ⟨rfl, rfl⟩ | hc := hs.connection_cases (hconnection.imp_right (·.1)) hc
    · exact (ha.made s.handles le_rfl).2.2.2.trans hnothing.symm
    · exact ha.current c k hc

end

theorem Endings.enter (he : Endings s j) (ha : Accounts side s j)
    (hs : Enters s t id origin.mode connection) (hopen : .close id ∉ j.acted) :
    Endings t (j.enter s.handles id origin) := by
  obtain ⟨hfresh, -, hhanded, -⟩ := ha.made s.handles le_rfl
  exact
    { ended := by
        intro k hk
        obtain ⟨c, hc, hnone⟩ := he.ended k hk
        refine ⟨c, ?_, ?_⟩
        · rw [Journal.number_enter, if_neg (ha.lt hc).ne, hc]
        · rw [hs.getElem?_handlers, if_neg (ha.lt hc).ne, hnone]
      told := by
        intro c k hc hnone hmode
        rw [hs.getElem?_handlers] at hnone
        split at hnone
        · cases hnone
        next hne =>
          rw [Journal.number_enter, if_neg hne] at hc
          rw [hs.options, Journal.request_enter hhanded, if_neg hne] at hmode
          exact he.told c k hc hnone hmode
      last := he.last
      heeded := by
        intro k hk c hc
        rw [hs.getElem?_handlers] at hc
        split at hc
        · obtain rfl := Option.some.inj hc
          exact hopen hk
        · exact he.heeded k hk c hc }

/-- An entry is written without a connection, with a number that is free. -/
theorem Accounts.insert (ha : Accounts side s j) {mode : ProxyMode}
    (hunused : ∀ h, j.number h ≠ some id)
    (hrunning : t.closed = s.closed ∧ t.moved = s.moved) (hoptions : t.options = s.options)
    (hhandlers : t.handlers = s.handlers)
    (hconnections : t.connections = s.connections.insert id ⟨mode, none⟩) (hdead : t.dead = s.dead)
    (hhandles : t.handles = s.handles) (hallocated : t.allocated = s.allocated)
    (hopened : ∀ id ∈ s.opened, id ∈ t.opened) : Accounts side t j := by
  have hentries (k : ProxyID) :
      t.connections[k]? = if id = k then some ⟨mode, none⟩ else s.connections[k]? := by
    rw [hconnections, ExtTreeMap.getElem?_insert]
    simp only [LawfulEqCmp.compare_eq_iff_eq]
  refine ha.mono hrunning hoptions hhandlers ?_ ?_ hdead hhandles hallocated hopened
  · intro h k hk
    rw [hentries, if_neg]
    rintro rfl
    exact hunused h hk
  · intro k h hh
    rw [connection, hentries] at hh
    split at hh
    · cases hh
    · exact hh

end

/-! ## Messages -/

/-- A proxy comes to a message that nothing is sent for. -/
theorem Accounts.act (ha : Accounts side s j) {message : Message}
    (hmessage : ∀ id h, s.connection id = some h → dataOf id [message] = []) :
    Accounts side s { j with acted := j.acted ++ [message] } where
  __ := ha
  numbers h id hid := by
    refine (ha.numbers h id hid).imp_right ?_
    rintro ⟨hopened, address, horigin, hopen⟩
    exact ⟨hopened, address, horigin, List.mem_append_left _ hopen⟩
  sent h id hid := (ha.sent h id hid).trans (dataOf_mono (List.prefix_append ..))
  current h id hid := by
    rw [dataOf_append, hmessage id h hid, List.append_nil]
    exact ha.current h id hid

theorem dataOf_data (k id : ProxyID) (isReliable : Bool) (bytes : Bytes) :
    dataOf k [.data id isReliable bytes] = if id = k then [(isReliable, bytes)] else [] := by
  by_cases hk : id = k <;> simp [dataOf, hk]

/-- Data that has come is sent on the connection of its entry, if there is one. -/
theorem Accounts.send (ha : Accounts side s j) (id : ProxyID) (isReliable : Bool) (bytes : Bytes) :
    Accounts side s (Journal.send { j with acted := j.acted ++ [.data id isReliable bytes] }
      (isReliable, bytes) (s.connection id)) := by
  cases hc : s.connection id with
  | none =>
      apply ha.act
      intro k h hk
      have hid : id ≠ k := by
        rintro rfl
        simp [hc] at hk
      rw [dataOf_data, if_neg hid]
  | some h =>
      have hnumber := ha.number hc
      have hsent (c : Handle) (hne : c ≠ h) :
          (Journal.send { j with acted := j.acted ++ [.data id isReliable bytes] }
            (isReliable, bytes) (some h)).sent c = j.sent c := by
        simp [Journal.send, hne]
      have hall : (Journal.send { j with acted := j.acted ++ [.data id isReliable bytes] }
            (isReliable, bytes) (some h)).sent h =
          dataOf id (j.acted ++ [.data id isReliable bytes]) := by
        simp [Journal.send, dataOf_data, ha.current h id hc]
      exact
        { ha with
          made := by
            intro c hle
            have hne : c ≠ h := by
              rintro rfl
              exact absurd (ha.lt hnumber) (not_lt.mpr hle)
            rw [hsent c hne]
            exact ha.made c hle
          numbers := by
            intro c k hk
            refine (ha.numbers c k hk).imp_right ?_
            rintro ⟨hopened, address, horigin, hopen⟩
            exact ⟨hopened, address, horigin, List.mem_append_left _ hopen⟩
          sent := by
            intro c k hk
            by_cases hne : c = h
            · subst c
              obtain rfl := Option.some.inj (hnumber.symm.trans hk)
              rw [hall]
              exact List.prefix_rfl
            · rw [hsent c hne]
              exact (ha.sent c k hk).trans (dataOf_mono (List.prefix_append ..))
          current := by
            intro c k hk
            by_cases hne : c = h
            · subst c
              obtain rfl := Option.some.inj (hnumber.symm.trans (ha.number hk))
              exact hall
            · have hid : id ≠ k := by
                rintro rfl
                exact hne (Option.some.inj (hk.symm.trans hc))
              rw [hsent c hne]
              simp only [Journal.send, dataOf_append, dataOf_data, if_neg hid, List.append_nil]
              exact ha.current c k hk }

/-- A proxy comes to a message, and there is nothing left that it closes. -/
theorem Endings.act (he : Endings s j) {message : Message}
    (hclose : ∀ id, message = .close id → ∀ h : Handle, s.handlers[h]? ≠ some id) :
    Endings s { j with acted := j.acted ++ [message] } where
  __ := he
  heeded id hid := by
    obtain hid | hid := List.mem_append.mp hid
    · exact he.heeded id hid
    · exact hclose id (List.mem_singleton.mp hid).symm

theorem Endings.send (he : Endings s j) (chunk : Chunk) (c : Option Handle) :
    Endings s (j.send chunk c) := by
  cases c with
  | none => exact he
  | some h => exact { he with }

/-! ## Steps -/

/-- The messages that a step queues are noted. -/
theorem queued_note (hclosed : s.closed = false) (event : ProxyEvent) :
    (j.note s event).queued = j.queued ++ (s.step event).out.drop s.out.length := by
  rw [Journal.note, hclosed, if_neg Bool.false_ne_true]
  cases event with
  | accept => rfl
  | packet h data isReliable =>
      dsimp only
      split <;> rfl
  | closed h => rfl
  | tick ready => rfl
  | message message connects =>
      dsimp only
      split
      · rfl
      · cases message with
        | «open» id address => cases connects <;> rfl
        | close id => rfl
        | data id isReliable bytes =>
            simp only [Journal.act]
            cases s.connection id <;> rfl
  | close => rfl

/-- Only messages are come to. -/
theorem acted_note (hclosed : s.closed = false) {event : ProxyEvent}
    (hevent : ∀ message connects, event ≠ .message message connects) :
    (j.note s event).acted = j.acted := by
  rw [Journal.note, hclosed, if_neg Bool.false_ne_true]
  cases event with
  | accept => rfl
  | packet h data isReliable =>
      dsimp only
      split <;> rfl
  | closed h => rfl
  | tick ready => rfl
  | message message connects => exact absurd rfl (hevent message connects)
  | close => rfl

theorem acted_note_message (hclosed : s.closed = false) (hwire : s.wire ≠ none) (message : Message)
    (connects : Bool) : (j.note s (.message message connects)).acted = j.acted ++ [message] := by
  rw [Journal.note, hclosed, if_neg Bool.false_ne_true]
  dsimp only
  rw [if_neg hwire]
  cases message with
  | «open» id address => cases connects <;> rfl
  | close id => rfl
  | data id isReliable bytes =>
      simp only [Journal.act]
      cases s.connection id <;> rfl

namespace Balanced

/-- What a step has to keep: the proxy agrees with its journal, and has queued something or
nothing. -/
def Keeps (side : Side) (s : Proxy) (j : Journal) (event : ProxyEvent) : Prop :=
  Balanced side (s.step event) (j.note s event) ∧ ∃ new, (s.step event).out = s.out ++ new

theorem closed_eq (hb : Balanced side s j) : s.closed = false := hb.accounts.running.1

/-- A connection is accepted. -/
theorem accept (hb : Balanced side s j) (hown : Own side (s.allocated + 1) s.nextProxyID)
    (hunused : ∀ h, j.number h ≠ some s.nextProxyID)
    (hnothing : dataOf s.nextProxyID j.acted = []) (hopen : .close s.nextProxyID ∉ j.acted) :
    Keeps side s j .accept := by
  have hstep : s.step .accept = s.onSocketAccept := by
    simp only [step, hb.closed_eq, Bool.false_eq_true, if_false]
  have hnote : j.note s .accept = j.enter s.handles s.nextProxyID .undecided := by
    rw [Journal.note, hb.closed_eq, if_neg Bool.false_ne_true, hstep]
    dsimp only
    rw [show s.onSocketAccept.out = s.out from rfl, List.drop_length, List.append_nil]
  have hs : Enters s s.onSocketAccept s.nextProxyID .none (some s.handles) :=
    ⟨⟨rfl, rfl⟩, rfl, rfl, rfl, rfl, rfl, Nat.le_succ _, fun _ hid => hid⟩
  rw [Keeps, hstep, hnote]
  refine ⟨⟨?_, ?_⟩, [], (List.append_nil _).symm⟩
  · exact hb.accounts.enter hs hunused hnothing rfl (.inl rfl) (.inl ⟨by decide, hown⟩)
  · exact hb.endings.enter hb.accounts hs hopen

/-- A connection hands over data. -/
theorem packet (hb : Balanced side s j) (h : Handle) (data : Bytes) (isReliable : Bool) :
    Keeps side s j (.packet h data isReliable) := by
  rw [Keeps, Journal.note, hb.closed_eq, if_neg Bool.false_ne_true]
  simp only [step, hb.closed_eq, Bool.false_eq_true, if_false]
  cases hh : s.handlers[h]? with
  | none =>
      simp only [Option.isSome_none, Bool.false_eq_true, if_false, List.drop_length,
        List.append_nil]
      exact ⟨hb, [], (List.append_nil _).symm⟩
  | some id =>
      obtain ⟨hnumber, -, entry, hentry, hmode, -⟩ := hb.accounts.called h id hh
      obtain ⟨new, hnew, ht⟩ := takes_onConnectionPacket hentry hmode
        (@Journal.announces_of_undecided j s.options h) data isReliable
      obtain ⟨connections, wire, heq⟩ := ht.eq
      have hout : (s.onConnectionPacket id data isReliable).out = s.out ++ new := by rw [heq]
      simp only [Option.isSome_some, if_true, hout, List.drop_left]
      refine ⟨⟨hb.accounts.hand hh hentry hnew ht, ?_⟩, new, rfl⟩
      exact hb.endings.hand hb.accounts hh hnew (by rw [heq]) (by rw [heq])

/-- A connection ends. -/
theorem part (hb : Balanced side s j) (hp : Parts s t h id entry) (hh : s.handlers[h]? = some id)
    (hmode : entry.mode = (j.request s.options h).mode) :
    Balanced side t { j with queued := j.queued ++ t.out.drop s.out.length } ∧
      ∃ new, t.out = s.out ++ new := by
  obtain ⟨dead, connections, heq⟩ := hp.eq
  have hout : t.out = s.out ++ notice id entry.mode := by rw [heq]
  rw [hout, List.drop_left]
  refine ⟨⟨hb.accounts.part hp hh, ?_⟩, _, rfl⟩
  exact hb.endings.part hp (hb.accounts.called h id hh).1 hmode

/-- The library closes a connection. -/
theorem closed (hb : Balanced side s j) (h : Handle) : Keeps side s j (.closed h) := by
  rw [Keeps, Journal.note, hb.closed_eq, if_neg Bool.false_ne_true]
  simp only [step, hb.closed_eq, Bool.false_eq_true, if_false]
  cases hh : s.handlers[h]? with
  | none =>
      have hsame : closeUser closeConnection s h = s := by simp only [closeUser, hh]
      rw [hsame, List.drop_length, List.append_nil]
      exact ⟨hb, [], (List.append_nil _).symm⟩
  | some id =>
      obtain ⟨entry, hmode, hp⟩ := hb.accounts.exists_parts hh
      exact hb.part hp hh hmode

/-- The ticker sends everything or nothing. -/
theorem tick (hb : Balanced side s j) (ready : Bool) :
    Balanced side (s.step (.tick ready)) (j.note s (.tick ready)) ∧
      (j.note s (.tick ready)).queued = j.queued ∧
      ((s.step (.tick ready)).out = s.out ∨ (s.step (.tick ready)).out = []) := by
  obtain ⟨misused, out, heq, hout⟩ := s.tick_eq ready
  have hstep : s.step (.tick ready) = { s with misused, out } := by
    simp only [step, hb.closed_eq, Bool.false_eq_true, if_false, heq]
  have hdrop : out.drop s.out.length = [] := by
    obtain rfl | rfl := hout
    · exact List.drop_length
    · exact List.drop_nil
  have hnote : j.note s (.tick ready) = j := by
    rw [Journal.note, hb.closed_eq, if_neg Bool.false_ne_true, hstep]
    dsimp only
    rw [hdrop, List.append_nil]
  rw [hstep, hnote]
  refine ⟨⟨?_, hb.endings.congr rfl rfl⟩, rfl, hout⟩
  exact hb.accounts.mono ⟨rfl, rfl⟩ rfl rfl (fun _ _ _ => rfl) (fun _ _ h => h) rfl rfl rfl fun _ h => h

/-- The other proxy has opened a connection, with a number that is free. -/
theorem messageOpen (hb : Balanced side s j) (hwire : s.wire ≠ none) (address : ProxyAddress)
    (connects : Bool) (hunused : ∀ h, j.number h ≠ some id) (hnothing : dataOf id j.acted = [])
    (hopen : .close id ∉ j.acted) : Keeps side s j (.message (.open id address) connects) := by
  have hstep : s.step (.message (.open id address) connects) = s.onConnectionOpen id connects := by
    simp only [step, hb.closed_eq, Bool.false_eq_true, if_false, if_neg hwire, onMessage]
  have hout : (s.onConnectionOpen id connects).out = s.out := by cases connects <;> rfl
  have hopened : ∀ k ∈ s.opened, k ∈ s.opened ++ [id] := fun k hk => List.mem_append_left _ hk
  have hacted : Balanced side s { j with acted := j.acted ++ [.open id address] } := by
    refine ⟨hb.accounts.act fun _ _ _ => rfl, hb.endings.act ?_⟩
    rintro k ⟨⟩
  have hlast : .open id address ∈ j.acted ++ [.open id address] :=
    List.mem_append_right _ List.mem_cons_self
  rw [Keeps, Journal.note, hb.closed_eq, if_neg Bool.false_ne_true, hstep]
  dsimp only
  rw [if_neg hwire, hout, List.drop_length, List.append_nil]
  refine ⟨?_, [], (List.append_nil _).symm⟩
  cases connects with
  | false =>
      refine ⟨?_, hacted.endings.congr rfl rfl⟩
      exact hacted.accounts.insert hunused ⟨rfl, rfl⟩ rfl rfl rfl rfl rfl rfl hopened
  | true =>
      have hs : Enters s (s.onConnectionOpen id true) id .connection (some s.handles) :=
        ⟨⟨rfl, rfl⟩, rfl, rfl, rfl, rfl, rfl, le_rfl, hopened⟩
      have hclosed : .close id ∉ j.acted ++ [.open id address] := by
        rw [List.mem_append, List.mem_singleton]
        rintro (hmem | hmem)
        · exact hopen hmem
        · cases hmem
      refine ⟨?_, hacted.endings.enter hacted.accounts hs hclosed⟩
      refine hacted.accounts.enter hs hunused ?_ rfl (.inl rfl) ?_
      · rw [dataOf_append, hnothing]
        rfl
      · exact .inr ⟨List.mem_append_right _ List.mem_cons_self, address, rfl, hlast⟩

/-- The other proxy has closed a connection, if there is one. -/
theorem messageClose (hb : Balanced side s j) (hwire : s.wire ≠ none) (connects : Bool)
    (hmode : ∀ h, s.handlers[h]? = some id → (j.request s.options h).mode ≠ .wire) :
    Keeps side s j (.message (.close id) connects) := by
  have hstep : s.step (.message (.close id) connects) = s.initiateConnectionClose id := by
    simp only [step, hb.closed_eq, Bool.false_eq_true, if_false, if_neg hwire, onMessage]
  have hacted : Accounts side s { j with acted := j.acted ++ [.close id] } :=
    hb.accounts.act fun _ _ _ => rfl
  rw [Keeps, Journal.note, hb.closed_eq, if_neg Bool.false_ne_true, hstep]
  dsimp only
  rw [if_neg hwire]
  simp only [Journal.act]
  obtain ⟨h, entry, hh, hentry, hp⟩ | ⟨hnone, connections, heq, hsame⟩ :=
    hb.accounts.initiateConnectionClose_cases id
  · obtain ⟨hpart, new, hnew⟩ := hb.part hp hh hentry
    rw [hnew, List.drop_left] at hpart ⊢
    refine ⟨⟨hpart.accounts.act fun _ _ _ => rfl, hpart.endings.act ?_⟩, new, rfl⟩
    rintro k ⟨⟩ c hc
    rw [hp.handlers] at hc
    split at hc
    · cases hc
    next hne =>
      have hnumber := (hb.accounts.called h id hh).1
      exact hne (hb.accounts.once h c id hnumber (hb.accounts.called c id hc).1)
  · rw [heq, List.drop_length, List.append_nil]
    refine ⟨⟨?_, ?_⟩, [], (List.append_nil _).symm⟩
    · refine hacted.mono ⟨rfl, rfl⟩ rfl rfl (fun _ k _ => hsame k) ?_ rfl rfl rfl fun _ h => h
      intro k h hh
      rwa [connection, hsame] at hh
    · refine (hb.endings.act ?_).congr rfl rfl
      -- An entry that is called back has its connection, unless it is the wire's.
      rintro k ⟨⟩ h hh
      obtain ⟨-, -, e, he, hemode, hc | hwire⟩ := hb.accounts.called h id hh
      · simp [connection, he, hc] at hnone
      · exact hmode h hh (hemode ▸ hwire)

/-- Data has come. -/
theorem messageData (hb : Balanced side s j) (hwire : s.wire ≠ none) (id : ProxyID)
    (isReliable : Bool) (bytes : Bytes) (connects : Bool) :
    Keeps side s j (.message (.data id isReliable bytes) connects) := by
  obtain ⟨misused, heq⟩ := s.exists_use_eq (s.connection id)
  have hstep : s.step (.message (.data id isReliable bytes) connects) = { s with misused } := by
    simp only [step, hb.closed_eq, Bool.false_eq_true, if_false, if_neg hwire, onMessage, heq]
  rw [Keeps, Journal.note, hb.closed_eq, if_neg Bool.false_ne_true, hstep]
  dsimp only
  rw [if_neg hwire, List.drop_length, List.append_nil]
  refine ⟨⟨?_, ?_⟩, [], (List.append_nil _).symm⟩
  · exact (hb.accounts.send id isReliable bytes).mono ⟨rfl, rfl⟩ rfl rfl (fun _ _ _ => rfl)
      (fun _ _ h => h) rfl rfl rfl fun _ h => h
  · refine ((hb.endings.act ?_).send (isReliable, bytes) (s.connection id)).congr rfl rfl
    rintro k ⟨⟩

end Balanced

end Proxy
end MrUDP
