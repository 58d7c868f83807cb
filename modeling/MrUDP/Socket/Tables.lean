import MrUDP.Connection.Outstanding
import MrUDP.Socket.Socket

/-!
# The look-up tables of a socket

A socket finds its connections by two tables, and keeps the short identifiers that are in
use in a set.  The three are updated by different functions; this module shows that they
always describe the same objects, as long as the long identifiers drawn by `connect` are not
already in use.

`acquireShortConnectionID` looks for a free identifier until it finds one.  There is none
once 65535 connections are open, which `connect` does not check and `isFull` does not
notice.

## Main definitions

* `Socket.acquires`: the steps that acquire a short identifier.
* `Socket.Change`: what a step does to the objects, the tables and the set.
* `Socket.reachable_objects`: all connections of a socket are reachable.
* `Socket.Consistent`: the tables and the set describe the objects that are not finished.
* `Socket.tables_run`: this holds along every run.
* `Socket.acquireLoop_iff`: when the search for a short identifier ends.
-/

namespace MrUDP
open Relation (ReflTransGen)
open Wire

namespace Connection

variable {z : Zlib} {c : Connection}

/-- The identifiers never change. -/
theorem keepsAll_ids (z : Zlib) (id : LongConnectionID) (localID : ShortConnectionID) :
    KeepsAll z fun c => c.id = id ∧ c.localID = localID := by
  have hkeeps : Keeps z True fun c => c.id = id ∧ c.localID = localID :=
    keeps_of_frame fun hc hid hlocalID _ _ _ => ⟨hid.trans hc.1, hlocalID.trans hc.2⟩
  refine hkeeps.front (fun {c} now call _ hc => ?_) (fun _ _ _ hc => by rwa [send_eq])
    fun _ _ _ _ _ hc => hc
  obtain ⟨probe, h⟩ := call_eq z now c call
  rwa [h]

theorem id_step (input : Timepoint × Input) : (c.step z input).id = c.id :=
  ((keepsAll_ids z c.id c.localID).step (Input.within_true input.2) (Input.hears_true input.2)
    ⟨rfl, rfl⟩).1

theorem localID_step (input : Timepoint × Input) : (c.step z input).localID = c.localID :=
  ((keepsAll_ids z c.id c.localID).step (Input.within_true input.2) (Input.hears_true input.2)
    ⟨rfl, rfl⟩).2

theorem ids_connect (now : Timepoint) (options : Option ConnectionOptions)
    (receiveHandler closeHandler : Bool) (id : LongConnectionID) (localID : ShortConnectionID)
    (remoteAddress : Address) (socketOptions : ConnectionOptions) :
    (connect z now options receiveHandler closeHandler
        (fresh id localID remoteAddress socketOptions)).id = id ∧
      (connect z now options receiveHandler closeHandler
        (fresh id localID remoteAddress socketOptions)).localID = localID := by
  have hkeeps := keepsAll_ids z id localID
  have hstart : (start now ((fresh id localID remoteAddress socketOptions).openUser options
      receiveHandler closeHandler)).id = id ∧
      (start now ((fresh id localID remoteAddress socketOptions).openUser options
        receiveHandler closeHandler)).localID = localID :=
    hkeeps.probe _ (hkeeps.openUser (.inr trivial) _ _ ⟨rfl, rfl⟩)
  have hh0 : IsRequest (fun _ => True) { header := { type := TypeID.h0 } } :=
    .inl ⟨.inl rfl, trivial⟩
  exact hkeeps.request now hh0 hstart

end Connection

namespace Socket
open Connection (storing immediate)

variable {z : Zlib} {now : Timepoint} {s : Socket}

theorem ids_created (now : Timepoint) (script : List UserCall) (id : LongConnectionID)
    (localID : ShortConnectionID) (remoteAddress : Address) (options : ConnectionOptions) :
    (created z now script id localID remoteAddress options).id = id ∧
      (created z now script id localID remoteAddress options).localID = localID :=
  (Connection.keepsAll_ids z id localID).userCalls now script (UserCall.withinAll_true script) _
    ⟨rfl, rfl⟩

/-! ## Acquiring a short identifier -/

/-- The checks `Socket::generateConnection` makes before it acquires a short identifier. -/
def Willing (s : Socket) (lookup : LookUp) (packet : Packet) (o : Surroundings) : Prop :=
  s.isFull = false ∧ packet.header.type = TypeID.h0 ∧ lookup.longID ≠ 0 ∧
    s.acceptHandler = true ∧ ¬ (s.shouldAccept = true ∧ o.shouldAccept = false)

instance (s : Socket) (lookup : LookUp) (packet : Packet) (o : Surroundings) :
    Decidable (s.Willing lookup packet o) := inferInstanceAs (Decidable (_ ∧ _))

/-- The random number with which a step calls `acquireShortConnectionID`, if it does. -/
def acquires (s : Socket) : Input → Option ShortConnectionID
  | .connect _ _ _ _ _ random _ => some random
  | .receive packet _ o =>
      if s.findConnection (getLookUp packet).1 = none ∧
          s.Willing (getLookUp packet).1 (getLookUp packet).2 o then some o.random
      else none
  | .listen _ _ | .close | .object _ _ | .finish _ => none

/-- A short identifier is in use. -/
def take (s : Socket) (localID : ShortConnectionID) : Socket :=
  { s with shortConnectionIDs := Insert.insert localID s.shortConnectionIDs }

variable {packet : Packet} {o : Surroundings} {c : Connection}

theorem generateConnection_of_not_willing {lookup : LookUp} (h : ¬ s.Willing lookup packet o)
    (remoteAddress : Address) :
    s.generateConnection z now lookup packet remoteAddress o = (none, s) := by
  rw [generateConnection]
  split
  · rfl
  next hfull =>
    split
    · rfl
    next htype =>
      split
      · rfl
      next hid =>
        split
        · rfl
        next haccept =>
          split
          · rfl
          next hshould =>
            refine absurd ⟨?_, not_not.mp htype, hid, ?_, hshould⟩ h
            · simpa using hfull
            · simpa using haccept

theorem generateConnection_of_willing {lookup : LookUp} (h : s.Willing lookup packet o)
    (remoteAddress : Address) :
    s.generateConnection z now lookup packet remoteAddress o =
      match acquireShortConnectionID s.shortConnectionIDs o.random with
      | none => (none, s)
      | some localID =>
          if o.opens = false then
            (none, (s.take localID).erase
              (Connection.fresh lookup.longID localID remoteAddress s.options))
          else if o.accepts = false then
            (none, (s.take localID).insert
              (Connection.closeWith now (Connection.userCalls z now o.onClose) .notAccepted
                (created z now o.script lookup.longID localID remoteAddress s.options)))
          else
            (some s.objects.length, (s.take localID).insert
              (created z now o.script lookup.longID localID remoteAddress s.options)) := by
  obtain ⟨hfull, htype, hid, haccept, hshould⟩ := h
  rw [generateConnection, if_neg (by simp [hfull]), if_neg (by simp [htype]), if_neg hid,
    if_neg (by simp [haccept]), if_neg hshould]
  rfl

/-! ## What a step does -/

/-- A long identifier drawn by `connect` is not in use. -/
def DrawsFresh (s : Socket) : Timepoint × Input → Prop
  | (_, .connect _ _ _ _ longID _ _) => s.connections[longID]? = none
  | _ => True

instance (s : Socket) : ∀ input, Decidable (s.DrawsFresh input)
  | (_, .connect _ _ _ _ longID _ _) => inferInstanceAs (Decidable (s.connections[longID]? = none))
  | (_, .listen _ _) | (_, .close) | (_, .receive _ _ _) | (_, .object _ _) | (_, .finish _) =>
      isTrue trivial

/-- A long identifier that finds nothing is not in the table. -/
theorem connections_of_findConnection {lookup : LookUp} (hid : lookup.longID ≠ 0)
    (h : s.findConnection lookup = none) : s.connections[lookup.longID]? = none := by
  rwa [findConnection, if_pos hid] at h

/-- The elementary changes of a socket.  A connection that is added has free identifiers, as has one
that is given up at once: the short one, and the long one if it was drawn so. -/
inductive Change (z : Zlib) (fresh : Prop) (s : Socket) : Socket → Prop
  | user (userDataDisposed shouldAccept acceptHandler : Bool) :
      Change z fresh s { s with
        userDataDisposed := userDataDisposed
        shouldAccept := shouldAccept
        acceptHandler := acceptHandler }
  | add {c : Connection} {id : LongConnectionID} {localID : ShortConnectionID}
      (hids : c.id = id ∧ c.localID = localID)
      (hfree : localID ≠ 0 ∧ localID ∉ s.shortConnectionIDs)
      (hid : fresh → s.connections[id]? = none) (hc : Connection.Reachable z c) :
      Change z fresh s ((s.take localID).insert c)
  | giveUp {c : Connection} (hfree : c.localID ≠ 0 ∧ c.localID ∉ s.shortConnectionIDs)
      (hid : fresh → s.connections[c.id]? = none) :
      Change z fresh s ((s.take c.localID).erase c)
  | object (k : ℕ) (input : Timepoint × Connection.Input) :
      Change z fresh s (s.modify k fun c => c.step z input)
  | finish {k : ℕ} {c : Connection} (hc : s.objects[k]? = some c) (hlive : k ∉ s.finished) :
      Change z fresh s { s.erase c with finished := Insert.insert k s.finished }

theorem findOrGenerateConnection_changes {fresh : Prop} (now : Timepoint) (lookup : LookUp)
    (packet : Packet) (remoteAddress : Address) (o : Surroundings) :
    ReflTransGen (Change z fresh) s
      (s.findOrGenerateConnection z now lookup packet remoteAddress o).2 := by
  rw [findOrGenerateConnection]
  split
  · exact .refl
  next hfind =>
    by_cases hwilling : s.Willing lookup packet o
    · have hid := connections_of_findConnection hwilling.2.2.1 hfind
      rw [generateConnection_of_willing hwilling]
      split
      · exact .refl
      next localID hacquired =>
        have hfree := acquireShortConnectionID_spec hacquired
        have hids := ids_created (z := z) now o.script lookup.longID localID remoteAddress s.options
        have hcreated := @reachable_created z now o.script lookup.longID localID remoteAddress
          s.options
        split
        · exact .single (.giveUp
            (c := Connection.fresh lookup.longID localID remoteAddress s.options) hfree fun _ => hid)
        · split
          · let closing := (now, Connection.Input.close .notAccepted o.onClose)
            exact .single (.add ⟨(Connection.id_step closing).trans hids.1,
              (Connection.localID_step closing).trans hids.2⟩ hfree (fun _ => hid)
              (hcreated.step closing))
          · exact .single (.add hids hfree (fun _ => hid) hcreated)
    · rw [generateConnection_of_not_willing hwilling]

/-- **A step is a sequence of elementary changes.** -/
theorem step_changes (input : Timepoint × Input) :
    ReflTransGen (Change z (s.DrawsFresh input)) s (s.step z input) := by
  obtain ⟨now, input⟩ := input
  cases input with
  | listen shouldAccept acceptHandler =>
      rw [step, listen]
      split
      · exact .single (.user false shouldAccept acceptHandler)
      · exact .refl
  | close =>
      rw [step, close]
      split
      · exact .refl
      · exact .single (.user true s.shouldAccept false)
  | connect remoteAddress options receiveHandler closeHandler longID random opens =>
      rw [step, connect]
      split
      · exact .refl
      next localID hacquired =>
        have hfree := acquireShortConnectionID_spec hacquired
        dsimp only
        split
        · exact .single (.add (Connection.ids_connect ..) hfree (fun h => h)
            (.of_started (.connected ..)))
        · exact .single (.giveUp (c := Connection.fresh longID localID remoteAddress s.options)
            hfree fun h => h)
  | receive packet remoteAddress o =>
      have hfound : ReflTransGen (Change z (s.DrawsFresh (now, .receive packet remoteAddress o))) s
          (s.findOrGenerateConnection z now (getLookUp packet).1 (getLookUp packet).2 remoteAddress
            o).2 :=
        findOrGenerateConnection_changes ..
      rw [step, receive]
      dsimp only
      split
      next hr => rwa [hr] at hfound
      next k s' hr =>
        rw [hr] at hfound
        exact hfound.tail (.object k (now, .receive (getLookUp packet).2 remoteAddress o.reactions))
  | object k input =>
      rw [step]
      split
      · exact .single (.object k (now, input))
      · exact .refl
  | finish k =>
      rw [step, finish]
      split
      · exact .refl
      next c hc =>
        split
        next hlive => exact .single (.finish hc hlive.2)
        · exact .refl

/-- What every elementary change keeps, a step keeps. -/
theorem step_of_change (P : Socket → Prop) {input : Timepoint × Input}
    (hchange : ∀ s₁ s₂, Change z (s.DrawsFresh input) s₁ s₂ → P s₁ → P s₂) (hs : P s) :
    P (s.step z input) := by
  have hchanges := step_changes (z := z) (s := s) input
  generalize s.step z input = s' at hchanges
  induction hchanges with
  | refl => exact hs
  | tail _ hstep ih => exact hchange _ _ hstep ih

/-- What every elementary change keeps holds in every reachable state. -/
theorem Reachable.of_change (hs : Reachable z s) (P : Socket → Prop)
    (hinit : ∀ options, P { options := options })
    (hchange : ∀ fresh s₁ s₂, Change z fresh s₁ s₂ → P s₁ → P s₂) : P s := by
  obtain ⟨options, inputs, rfl⟩ := hs
  exact Machine.run_invariant_of_step P (fun s input => step_of_change P (hchange _))
    (hinit options) inputs

/-- **All connections of a socket are reachable connections.** -/
theorem reachable_objects (hs : Reachable z s) : ∀ c ∈ s.objects, Connection.Reachable z c := by
  refine hs.of_change (fun s => ∀ c ∈ s.objects, Connection.Reachable z c) (by simp) ?_
  intro fresh s s' h hs
  cases h with
  | user | giveUp | finish => exact hs
  | add _ _ _ hadded =>
      intro c hc
      rcases List.mem_append.mp hc with hc | hc
      · exact hs c hc
      · rwa [List.mem_singleton.mp hc]
  | object k input =>
      intro c hc
      rcases mem_modify hc with hc | ⟨c', hc', rfl⟩
      · exact hs c hc
      · exact (hs c' hc').step input

/-! ## The tables -/

/-- The tables and the set of short identifiers describe the objects that are not
finished. -/
structure Consistent (s : Socket) : Prop where
  connections : ∀ id k, s.connections[id]? = some k ↔
    ∃ c, s.objects[k]? = some c ∧ k ∉ s.finished ∧ c.id = id
  receiveConnections : ∀ localID k, s.receiveConnections[localID]? = some k ↔
    ∃ c, s.objects[k]? = some c ∧ k ∉ s.finished ∧ c.localID = localID
  shortConnectionIDs : ∀ localID, localID ∈ s.shortConnectionIDs ↔
    ∃ k, s.receiveConnections[localID]? = some k
  zero : 0 ∉ s.shortConnectionIDs
  finished : ∀ k ∈ s.finished, k < s.objects.length

theorem Consistent.init (options : ConnectionOptions) : Consistent { options := options } where
  connections := by simp
  receiveConnections := by simp
  shortConnectionIDs := by simp
  zero := by simp
  finished := by simp

/-- Something happens to one object that keeps its identifiers. -/
theorem Consistent.modify (h : s.Consistent) (k : ℕ) {f : Connection → Connection}
    (hid : ∀ c, (f c).id = c.id) (hlocalID : ∀ c, (f c).localID = c.localID) :
    (s.modify k f).Consistent := by
  have hobject : ∀ {p : Connection → Prop} (j : ℕ), (∀ c, p (f c) ↔ p c) →
      ((∃ c, (s.objects.modify k f)[j]? = some c ∧ j ∉ s.finished ∧ p c) ↔
        ∃ c, s.objects[j]? = some c ∧ j ∉ s.finished ∧ p c) := by
    intro p j hp
    rw [List.getElem?_modify]
    cases s.objects[j]? with
    | none => simp
    | some c =>
        by_cases hk : k = j
        · simp [hk, hp]
        · simp [hk]
  refine ⟨?_, ?_, h.shortConnectionIDs, h.zero, ?_⟩
  · intro id j
    rw [Socket.modify, hobject j (p := fun c => c.id = id) fun c => by rw [hid]]
    exact h.connections id j
  · intro localID j
    rw [Socket.modify, hobject j (p := fun c => c.localID = localID) fun c => by rw [hlocalID]]
    exact h.receiveConnections localID j
  · simpa [Socket.modify] using h.finished

/-- A new object with free identifiers enters the tables. -/
theorem Consistent.insert (h : s.Consistent) (hzero : c.localID ≠ 0)
    (hlocalID : c.localID ∉ s.shortConnectionIDs) (hid : s.connections[c.id]? = none) :
    ((s.take c.localID).insert c).Consistent := by
  have hnew : s.objects.length ∉ s.finished := fun hmem => lt_irrefl _ (h.finished _ hmem)
  have hreceive : s.receiveConnections[c.localID]? = none := by
    rw [h.shortConnectionIDs, not_exists] at hlocalID
    exact Option.eq_none_iff_forall_ne_some.mpr hlocalID
  -- The new object has the identifiers asked for, or an old one has and they are others.
  have hobject : ∀ {β : Type} [DecidableEq β] (key : Connection → β) (table : β → Option ℕ),
      table (key c) = none →
      (∀ x k, table x = some k ↔ ∃ c, s.objects[k]? = some c ∧ k ∉ s.finished ∧ key c = x) →
      ∀ x k, (if key c = x then some s.objects.length else table x) = some k ↔
        ∃ c', (s.objects ++ [c])[k]? = some c' ∧ k ∉ s.finished ∧ key c' = x := by
    intro β _ key table hfree htable x k
    rcases lt_trichotomy k s.objects.length with hk | rfl | hk
    · rw [List.getElem?_append_left hk, ← htable]
      split
      next hx =>
        subst hx
        simp only [hfree, Option.some.injEq, reduceCtorEq, iff_false]
        omega
      · rfl
    · have hold : table x ≠ some s.objects.length := by
        rw [ne_eq, htable]
        simp
      by_cases hx : key c = x
      · simp [hx, hnew]
      · simp [hx, hold]
    · have hold : table x ≠ some k := by
        rw [ne_eq, htable, List.getElem?_eq_none (by omega)]
        simp
      have hout : (s.objects ++ [c])[k]? = none := by
        rw [List.getElem?_eq_none_iff]
        simp
        omega
      rw [hout]
      split
      · simp
        omega
      · simp [hold]
  refine ⟨?_, ?_, ?_, ?_, ?_⟩
  · intro id k
    simp only [Socket.insert, take, Std.ExtTreeMap.getElem?_insert,
      Std.LawfulEqCmp.compare_eq_iff_eq]
    exact hobject (fun c => c.id) (fun x => s.connections[x]?) hid h.connections id k
  · intro localID k
    simp only [Socket.insert, take, Std.ExtTreeMap.getElem?_insert,
      Std.LawfulEqCmp.compare_eq_iff_eq]
    exact hobject (fun c => c.localID) (fun x => s.receiveConnections[x]?) hreceive
      h.receiveConnections localID k
  · intro localID
    simp only [Socket.insert, take, Std.ExtTreeMap.getElem?_insert,
      Std.LawfulEqCmp.compare_eq_iff_eq, Finset.mem_insert, h.shortConnectionIDs]
    by_cases hl : c.localID = localID
    · simp [hl]
    · simp [hl, Ne.symm hl]
  · simp only [Socket.insert, take, Finset.mem_insert, not_or]
    exact ⟨hzero.symm, h.zero⟩
  · intro k hk
    have := h.finished k hk
    simp only [Socket.insert, take, List.length_append, List.length_singleton]
    omega

theorem erase_eq_self {α β : Type} [Ord α] [Std.TransOrd α] [Std.LawfulEqOrd α]
    {table : Std.ExtTreeMap α β} {a : α} (h : table[a]? = none) : table.erase a = table := by
  ext x v
  rw [Std.ExtTreeMap.getElem?_erase]
  split
  next hx =>
    rw [← Std.LawfulEqCmp.eq_of_compare hx, h]
  · rfl

/-- An object with free identifiers that enters the tables and leaves them at once. -/
theorem Consistent.take_erase (h : s.Consistent) (hlocalID : c.localID ∉ s.shortConnectionIDs)
    (hid : s.connections[c.id]? = none) : ((s.take c.localID).erase c).Consistent := by
  have hreceive : s.receiveConnections[c.localID]? = none := by
    rw [h.shortConnectionIDs, not_exists] at hlocalID
    exact Option.eq_none_iff_forall_ne_some.mpr hlocalID
  have hsame : (s.take c.localID).erase c = s := by
    simp only [erase, take, erase_eq_self hid, erase_eq_self hreceive,
      Finset.erase_insert hlocalID]
  rwa [hsame]

/-- An object that is not finished leaves the tables. -/
theorem Consistent.finish (h : s.Consistent) {k : ℕ} (hc : s.objects[k]? = some c)
    (hlive : k ∉ s.finished) :
    Consistent { s.erase c with finished := Insert.insert k s.finished } := by
  have hobject : ∀ {β : Type} [DecidableEq β] (key : Connection → β) (table : β → Option ℕ),
      (∀ x k, table x = some k ↔ ∃ c, s.objects[k]? = some c ∧ k ∉ s.finished ∧ key c = x) →
      ∀ x j, (if key c = x then none else table x) = some j ↔
        ∃ c', s.objects[j]? = some c' ∧ j ∉ Insert.insert k s.finished ∧ key c' = x := by
    intro β _ key table htable x j
    have hown : table (key c) = some k := (htable _ _).mpr ⟨c, hc, hlive, rfl⟩
    rw [Finset.mem_insert, not_or]
    by_cases hj : j = k
    · subst hj
      have hother : key c ≠ x → table x ≠ some j := by
        intro hne heq
        obtain ⟨c', hc', _, hx⟩ := (htable _ _).mp heq
        rw [hc] at hc'
        cases hc'
        exact hne hx
      by_cases hx : key c = x
      · simp [hx]
      · simp [hx, hother hx]
    · by_cases hx : key c = x
      · -- Another object with this identifier would be the same one.
        subst hx
        simp only [reduceIte, reduceCtorEq, false_iff]
        rintro ⟨c', hc', hj', hx⟩
        have hsame := (htable (key c) j).mpr ⟨c', hc', hj'.2, hx⟩
        rw [hown] at hsame
        cases hsame
        exact hj rfl
      · simp [hx, hj, htable]
  refine ⟨?_, ?_, ?_, ?_, ?_⟩
  · intro id j
    simp only [erase, Std.ExtTreeMap.getElem?_erase, Std.LawfulEqCmp.compare_eq_iff_eq]
    exact hobject (fun c => c.id) (fun x => s.connections[x]?) h.connections id j
  · intro localID j
    simp only [erase, Std.ExtTreeMap.getElem?_erase, Std.LawfulEqCmp.compare_eq_iff_eq]
    exact hobject (fun c => c.localID) (fun x => s.receiveConnections[x]?)
      h.receiveConnections localID j
  · intro localID
    simp only [erase, Std.ExtTreeMap.getElem?_erase, Std.LawfulEqCmp.compare_eq_iff_eq,
      Finset.mem_erase, h.shortConnectionIDs]
    by_cases hl : c.localID = localID
    · simp [hl]
    · simp [hl, Ne.symm hl]
  · intro hmem
    exact h.zero (Finset.mem_of_mem_erase hmem)
  · intro j hj
    rcases Finset.mem_insert.mp hj with rfl | hj
    · exact (List.getElem?_eq_some_iff.mp hc).1
    · exact h.finished j hj

theorem Consistent.of_eq {s' : Socket} (h : s.Consistent) (hobjects : s'.objects = s.objects)
    (hconnections : s'.connections = s.connections)
    (hreceiveConnections : s'.receiveConnections = s.receiveConnections)
    (hshortConnectionIDs : s'.shortConnectionIDs = s.shortConnectionIDs)
    (hfinished : s'.finished = s.finished) : s'.Consistent where
  connections := by rw [hobjects, hconnections, hfinished]; exact h.connections
  receiveConnections := by rw [hobjects, hreceiveConnections, hfinished]; exact h.receiveConnections
  shortConnectionIDs := by
    rw [hshortConnectionIDs, hreceiveConnections]; exact h.shortConnectionIDs
  zero := by rw [hshortConnectionIDs]; exact h.zero
  finished := by rw [hobjects, hfinished]; exact h.finished

/-- **A step keeps the tables consistent.** -/
theorem Consistent.step (h : s.Consistent) (input : Timepoint × Input)
    (hfresh : s.DrawsFresh input) : (s.step z input).Consistent := by
  refine step_of_change Consistent ?_ h
  intro s s' hchange h
  cases hchange with
  | user => exact h.of_eq rfl rfl rfl rfl rfl
  | add hids hfree hid _ =>
      obtain ⟨rfl, rfl⟩ := hids
      exact h.insert hfree.1 hfree.2 (hid hfresh)
  | giveUp hfree hid => exact h.take_erase hfree.2 (hid hfresh)
  | object k input =>
      exact h.modify k (fun c => Connection.id_step _) (fun c => Connection.localID_step _)
  | finish hc hlive => exact h.finish hc hlive

/-- Object `k` is in the table of long identifiers. -/
def Listed (s : Socket) (k : ℕ) : Prop := ∃ id : LongConnectionID, s.connections[id]? = some k

theorem Consistent.listed_iff (h : s.Consistent) (k : ℕ) :
    s.Listed k ↔ ∃ c, s.objects[k]? = some c ∧ k ∉ s.finished := by
  constructor
  · rintro ⟨id, hk⟩
    obtain ⟨c, hc, hlive, _⟩ := (h.connections id k).mp hk
    exact ⟨c, hc, hlive⟩
  · rintro ⟨c, hc, hlive⟩
    exact ⟨c.id, (h.connections c.id k).mpr ⟨c, hc, hlive, rfl⟩⟩

/-- A packet is found to be for the object with its short identifier or its long one. -/
theorem Consistent.findConnection (h : s.Consistent) {k : ℕ}
    (hk : s.findConnection (getLookUp packet).1 = some k) :
    ∃ c, s.objects[k]? = some c ∧
      (packet.header.connection ≠ 0 ∧ c.localID = packet.header.connection ∨
        packet.header.connection = 0 ∧ (getLookUp packet).1.longID ≠ 0 ∧
          c.id = (getLookUp packet).1.longID) := by
  rw [Socket.findConnection] at hk
  by_cases hshort : packet.header.connection = 0
  · have hlookup : (getLookUp packet).1.shortID = 0 := by
      rw [getLookUp, if_pos hshort]
      split <;> rfl
    split at hk
    next hid =>
      obtain ⟨c, hc, _, hcid⟩ := (h.connections _ k).mp hk
      exact ⟨c, hc, .inr ⟨hshort, hid, hcid⟩⟩
    · rw [if_neg (not_not.mpr hlookup)] at hk
      cases hk
  · have hlookup : (getLookUp packet).1 = { shortID := packet.header.connection } := by
      rw [getLookUp, if_neg hshort]
    rw [hlookup, if_neg (by simp), if_pos hshort] at hk
    obtain ⟨c, hc, _, hclocalID⟩ := (h.receiveConnections _ k).mp hk
    exact ⟨c, hc, .inl ⟨hshort, hclocalID⟩⟩

/-- A packet for which no identifier is acquired adds no object. -/
theorem objects_receive_of_acquires_eq_none {remoteAddress : Address}
    (h : s.acquires (.receive packet remoteAddress o) = none) :
    (s.receive z now packet remoteAddress o).objects.length = s.objects.length := by
  have hfound : (s.findOrGenerateConnection z now (getLookUp packet).1 (getLookUp packet).2
      remoteAddress o).2 = s := by
    rw [findOrGenerateConnection]
    split
    · rfl
    next hfind =>
      rw [generateConnection_of_not_willing]
      intro hwilling
      rw [acquires, if_pos ⟨hfind, hwilling⟩] at h
      cases h
  rw [receive]
  dsimp only
  split
  next s' hr =>
    rw [hr] at hfound
    change s' = s at hfound
    rw [hfound]
  next k s' hr =>
    rw [hr] at hfound
    change s' = s at hfound
    rw [hfound, modify, List.length_modify]

/-- A packet for which an identifier is acquired is an H0 with a new long identifier. -/
theorem h0_of_acquires {remoteAddress : Address} {random : ShortConnectionID}
    (h : s.acquires (.receive packet remoteAddress o) = some random) :
    packet.header.type = TypeID.h0 ∧ (getLookUp packet).1.longID ≠ 0 ∧
      s.connections[(getLookUp packet).1.longID]? = none := by
  rw [acquires] at h
  split at h
  next hcreates =>
    obtain ⟨hfind, _, htype, hid, _⟩ := hcreates
    rw [header_getLookUp] at htype
    exact ⟨htype, hid, connections_of_findConnection hid hfind⟩
  · cases h

/-- The second table holds the objects of the first. -/
theorem Consistent.listed_iff_receiveConnections (h : s.Consistent) (k : ℕ) :
    s.Listed k ↔ ∃ localID : ShortConnectionID, s.receiveConnections[localID]? = some k := by
  rw [h.listed_iff]
  constructor
  · rintro ⟨c, hc, hlive⟩
    exact ⟨c.localID, (h.receiveConnections _ k).mpr ⟨c, hc, hlive, rfl⟩⟩
  · rintro ⟨localID, hk⟩
    obtain ⟨c, hc, hlive, -⟩ := (h.receiveConnections _ k).mp hk
    exact ⟨c, hc, hlive⟩

/-- The short identifiers in use are those of the objects in the tables. -/
theorem Consistent.mem_shortConnectionIDs (h : s.Consistent) (localID : ShortConnectionID) :
    localID ∈ s.shortConnectionIDs ↔
      ∃ (k : ℕ) (c : Connection), s.Listed k ∧ s.objects[k]? = some c ∧ c.localID = localID := by
  rw [h.shortConnectionIDs]
  constructor
  · rintro ⟨k, hk⟩
    obtain ⟨c, hc, -, hlocalID⟩ := (h.receiveConnections _ k).mp hk
    exact ⟨k, c, (h.listed_iff_receiveConnections k).mpr ⟨localID, hk⟩, hc, hlocalID⟩
  · rintro ⟨k, c, hk, hc, hlocalID⟩
    obtain ⟨c', hc', hlive⟩ := (h.listed_iff k).mp hk
    rw [hc] at hc'
    cases hc'
    exact ⟨k, (h.receiveConnections _ k).mpr ⟨c, hc, hlive, hlocalID⟩⟩

/-- No two objects in the tables share an identifier. -/
theorem Consistent.eq_of_shared (h : s.Consistent) {k k' : ℕ} {c' : Connection} (hk : s.Listed k)
    (hc : s.objects[k]? = some c) (hk' : s.Listed k') (hc' : s.objects[k']? = some c')
    (hsame : c.id = c'.id ∨ c.localID = c'.localID) : k = k' := by
  obtain ⟨d, hd, hlive⟩ := (h.listed_iff k).mp hk
  obtain ⟨d', hd', hlive'⟩ := (h.listed_iff k').mp hk'
  rcases hsame with hsame | hsame
  · have hk := (h.connections c.id k).mpr ⟨c, hc, hlive, rfl⟩
    have hk' := (h.connections c.id k').mpr ⟨c', hc', hlive', hsame.symm⟩
    exact Option.some_injective _ (hk.symm.trans hk')
  · have hk := (h.receiveConnections c.localID k).mpr ⟨c, hc, hlive, rfl⟩
    have hk' := (h.receiveConnections c.localID k').mpr ⟨c', hc', hlive', hsame.symm⟩
    exact Option.some_injective _ (hk.symm.trans hk')

/-- **The tables are consistent.**  In every run in which the long identifiers drawn by
`connect` are not in use: the two tables hold the same objects, each under its own
identifiers; the short identifiers in use are theirs, and none of them is zero; no two of
them share an identifier; a packet is only found to be for the object it names; and a packet
for which a connection is created is an H0 with a long identifier that is not in the
tables. -/
theorem tables_run {options : ConnectionOptions} {inputs : List (Timepoint × Input)}
    (hfresh : Machine.Along (step z) DrawsFresh { options := options } inputs) :
    let s := Machine.run (step z) { options := options } inputs
    (∀ k, s.Listed k ↔ ∃ localID : ShortConnectionID, s.receiveConnections[localID]? = some k) ∧
      (∀ (id : LongConnectionID) (k : ℕ), s.connections[id]? = some k →
        ∃ c : Connection, s.objects[k]? = some c ∧ c.id = id) ∧
      (∀ (localID : ShortConnectionID) (k : ℕ), s.receiveConnections[localID]? = some k →
        ∃ c : Connection, s.objects[k]? = some c ∧ c.localID = localID) ∧
      (∀ localID, localID ∈ s.shortConnectionIDs ↔
        ∃ (k : ℕ) (c : Connection), s.Listed k ∧ s.objects[k]? = some c ∧ c.localID = localID) ∧
      (∀ (k : ℕ) (c : Connection), s.Listed k → s.objects[k]? = some c → c.localID ≠ 0) ∧
      (∀ (k k' : ℕ) (c c' : Connection), s.Listed k → s.objects[k]? = some c → s.Listed k' →
        s.objects[k']? = some c' → c.id = c'.id ∨ c.localID = c'.localID → k = k') ∧
      (∀ (packet : Packet) (k : ℕ), s.findConnection (getLookUp packet).1 = some k →
        s.Listed k ∧ ∃ c : Connection, s.objects[k]? = some c ∧
          (packet.header.connection ≠ 0 ∧ c.localID = packet.header.connection ∨
            packet.header.connection = 0 ∧ (getLookUp packet).1.longID ≠ 0 ∧
              c.id = (getLookUp packet).1.longID)) ∧
      ∀ now packet remoteAddress o,
        (s.acquires (.receive packet remoteAddress o) ≠ none ∨
          (s.receive z now packet remoteAddress o).objects.length ≠ s.objects.length) →
        packet.header.type = TypeID.h0 ∧ (getLookUp packet).1.longID ≠ 0 ∧
          s.connections[(getLookUp packet).1.longID]? = none := by
  have hs : (Machine.run (step z) { options := options } inputs).Consistent :=
    Machine.run_invariant Consistent (fun s input h hfresh => h.step input hfresh)
      (.init options) hfresh
  intro s
  change s.Consistent at hs
  refine ⟨hs.listed_iff_receiveConnections, ?_, ?_, hs.mem_shortConnectionIDs, ?_, ?_, ?_, ?_⟩
  · intro id k hk
    obtain ⟨c, hc, _, hid⟩ := (hs.connections id k).mp hk
    exact ⟨c, hc, hid⟩
  · intro localID k hk
    obtain ⟨c, hc, _, hlocalID⟩ := (hs.receiveConnections localID k).mp hk
    exact ⟨c, hc, hlocalID⟩
  · intro k c hk hc hzero
    exact hs.zero ((hs.mem_shortConnectionIDs 0).mpr ⟨k, c, hk, hc, hzero⟩)
  · intro k k' c c' hk hc hk' hc' hsame
    exact hs.eq_of_shared hk hc hk' hc' hsame
  · intro packet k hk
    refine ⟨?_, hs.findConnection hk⟩
    rw [Socket.findConnection] at hk
    split at hk
    · exact ⟨_, hk⟩
    · split at hk
      · exact (hs.listed_iff_receiveConnections k).mpr ⟨_, hk⟩
      · cases hk
  · intro now packet remoteAddress o hcreated
    cases hacquires : s.acquires (.receive packet remoteAddress o) with
    | some random => exact h0_of_acquires hacquires
    | none =>
        rcases hcreated with hcreated | hcreated
        · exact absurd hacquires hcreated
        · exact absurd (objects_receive_of_acquires_eq_none hacquires) hcreated

/-- A socket that connects twice, once in vain, is asked for two connections, of which it
accepts one, and loses the other. -/
def mingling : List (Timepoint × Input) :=
  let h0 (longID : ℕ) : Packet := { header := { type := TypeID.h0 }, data := leBytes 16 longID }
  [(0, .listen false true), (1, .connect 2 none true true 7 9 true),
    (2, .connect 2 none true true 8 9 false), (3, .receive (h0 5) 2 { random := 9 }),
    (4, .receive (h0 6) 2 { random := 9, accepts := false }), (5, .finish 2)]

/-- The tables of that socket hold two of its three objects. -/
theorem tables_run_mingling :
    let s := Machine.run (step storing) { options := immediate } mingling
    s.objects.length = 3 ∧ s.shortConnectionIDs = {9, 10} ∧
      ∀ k, s.Listed k ↔ ∃ localID : ShortConnectionID, s.receiveConnections[localID]? = some k :=
  ⟨by decide +kernel, by decide +kernel, (tables_run (by decide +kernel)).1⟩

/-! ## When the search for a short identifier ends -/

/-- The search ends if a free identifier is ahead. -/
theorem acquireLoop_ne_none {used : Finset ShortConnectionID} :
    ∀ (fuel : ℕ) (random : ShortConnectionID) (j : ℕ), j < fuel →
      random + BitVec.ofNat 16 j ≠ 0 → random + BitVec.ofNat 16 j ∉ used →
      acquireLoop used fuel random ≠ none := by
  intro fuel
  induction fuel with
  | zero =>
      intro random j hj
      omega
  | succ fuel ih =>
      intro random j hj hzero hfree
      rw [acquireLoop]
      split
      next htaken =>
        cases j with
        | zero =>
            rw [BitVec.ofNat_eq_ofNat, BitVec.add_zero] at hzero
            rw [BitVec.add_zero] at hfree
            exact absurd htaken (not_or.mpr ⟨hzero, hfree⟩)
        | succ j =>
            have hshift : random + BitVec.ofNat 16 (j + 1) = random + 1 + BitVec.ofNat 16 j := by
              rw [add_comm j 1, BitVec.ofNat_add, add_assoc]
              rfl
            rw [hshift] at hzero hfree
            exact ih _ j (by omega) hzero hfree
      · simp

theorem exists_offset (random id : ShortConnectionID) :
    ∃ j < 2 ^ 16, random + BitVec.ofNat 16 j = id := by
  refine ⟨(id - random).toNat, (id - random).isLt, ?_⟩
  rw [BitVec.ofNat_toNat, BitVec.setWidth_eq]
  abel

/-- Zero is never in use. -/
theorem zero_notMem_shortConnectionIDs (hs : Reachable z s) : 0 ∉ s.shortConnectionIDs := by
  refine hs.of_change (fun s => 0 ∉ s.shortConnectionIDs) (by simp) ?_
  intro fresh s s' h hs
  cases h with
  | user | object => exact hs
  | add _ hfree _ _ =>
      intro hmem
      exact (Finset.mem_insert.mp hmem).elim hfree.1.symm hs
  | giveUp hfree _ =>
      intro hmem
      exact (Finset.mem_insert.mp (Finset.mem_of_mem_erase hmem)).elim hfree.1.symm hs
  | finish => exact fun hmem => hs (Finset.mem_of_mem_erase hmem)

/-- **The search for a short identifier ends exactly if fewer than 65535 are in use.**  For
every reachable socket and every step that acquires an identifier, the loop ends, with an
identifier that is not zero and was not in use, if and only if there are fewer than 65535
identifiers in use. -/
theorem acquireLoop_iff (hs : Reachable z s) :
    ∀ (input : Input) (random : ShortConnectionID), s.acquires input = some random →
      ((∃ fuel id, acquireLoop s.shortConnectionIDs fuel random = some id ∧ id ≠ 0 ∧
          id ∉ s.shortConnectionIDs) ↔
        s.shortConnectionIDs.card < 2 ^ 16 - 1) := by
  intro input random _
  have hzero := zero_notMem_shortConnectionIDs hs
  have hcard : (Insert.insert 0 s.shortConnectionIDs).card = s.shortConnectionIDs.card + 1 :=
    Finset.card_insert_of_notMem hzero
  have huniv : (Finset.univ : Finset ShortConnectionID).card = 2 ^ 16 := by
    have hfin : Fintype.card ShortConnectionID = Fintype.card (Fin (2 ^ 16)) :=
      Fintype.card_congr ⟨BitVec.toFin, BitVec.ofFin, fun _ => rfl, fun _ => rfl⟩
    rw [Finset.card_univ, hfin, Fintype.card_fin]
  constructor
  · rintro ⟨fuel, id, _, hid, hfree⟩
    have hnotMem : id ∉ Insert.insert 0 s.shortConnectionIDs := by
      rw [Finset.mem_insert, not_or]
      exact ⟨hid, hfree⟩
    have hlt : (Insert.insert 0 s.shortConnectionIDs).card < 2 ^ 16 := by
      rw [← huniv]
      apply Finset.card_lt_card
      exact Finset.ssubset_univ_iff.mpr fun h => hnotMem (h ▸ Finset.mem_univ id)
    omega
  · intro hlt
    have hne : Insert.insert 0 s.shortConnectionIDs ≠ Finset.univ := by
      intro h
      rw [h, huniv] at hcard
      omega
    obtain ⟨id, hid⟩ := not_forall.mp (Finset.eq_univ_iff_forall.not.mp hne)
    rw [Finset.mem_insert, not_or] at hid
    obtain ⟨j, hj, rfl⟩ := exists_offset random id
    obtain ⟨found, hfound⟩ :=
      Option.ne_none_iff_exists'.mp (acquireLoop_ne_none _ random j hj hid.1 hid.2)
    exact ⟨_, found, hfound, acquireLoop_free _ _ hfound⟩

/-- A socket that listens, and then connects `n` times. -/
def crowding (n : ℕ) : List (Timepoint × Input) :=
  (0, .listen false true) :: (List.range n).map fun i =>
    (1, .connect 2 none true true (BitVec.ofNat 128 (i + 1)) (BitVec.ofNat 16 (i + 1)) true)

/-- The socket with its `n` connections. -/
def crowded (n : ℕ) : Socket :=
  Machine.run (step storing) { options := immediate } (crowding n)

theorem reachable_crowded (n : ℕ) : Reachable storing (crowded n) :=
  ⟨immediate, crowding n, rfl⟩

/-- With two identifiers in use, the search that starts at one of them ends. -/
theorem acquireLoop_iff_crowded :
    (crowded 2).shortConnectionIDs = {1, 2} ∧
      ∃ fuel id, acquireLoop (crowded 2).shortConnectionIDs fuel 1 = some id ∧ id ≠ 0 ∧
        id ∉ (crowded 2).shortConnectionIDs :=
  ⟨by decide +kernel, (acquireLoop_iff (reachable_crowded 2)
    (.connect 2 none true true 7 1 true) 1 rfl).mpr (by decide +kernel)⟩

theorem crowded_succ (n : ℕ) :
    crowded (n + 1) = (crowded n).connect storing 1 2 none true true (BitVec.ofNat 128 (n + 1))
      (BitVec.ofNat 16 (n + 1)) true := by
  simp only [crowded, crowding, List.range_succ, List.map_append, Machine.run_cons,
    Machine.run_append, List.map_cons, List.map_nil, Machine.run_nil]
  rfl

/-- The first `n` short identifiers are in use, and no long identifier but the first `n`. -/
theorem crowded_spec {n : ℕ} (hn : n < 2 ^ 16) :
    (crowded n).shortConnectionIDs =
        (Finset.range n).image (fun i => BitVec.ofNat 16 (i + 1)) ∧
      (crowded n).acceptHandler = true ∧ (crowded n).shouldAccept = false ∧
      ∀ id : LongConnectionID, n < id.toNat → (crowded n).connections[id]? = none := by
  induction n with
  | zero => exact ⟨by decide +kernel, rfl, rfl, fun id _ => by simp [crowded, crowding, step, listen]⟩
  | succ n ih =>
      obtain ⟨hused, haccept, hshould, hfree⟩ := ih (by omega)
      have hacquire : acquireShortConnectionID (crowded n).shortConnectionIDs
          (BitVec.ofNat 16 (n + 1)) = some (BitVec.ofNat 16 (n + 1)) := by
        rw [acquireShortConnectionID, show 2 ^ 16 = 65535 + 1 from rfl, acquireLoop, if_neg]
        rw [hused, not_or, Finset.mem_image]
        constructor
        · intro h
          have := congrArg BitVec.toNat h
          simp at this
          omega
        · rintro ⟨i, hi, h⟩
          have := congrArg BitVec.toNat h
          simp at this hi
          omega
      rw [crowded_succ, connect, hacquire]
      refine ⟨?_, haccept, hshould, ?_⟩
      · simp only [reduceIte, insert, hused, Finset.range_add_one, Finset.image_insert]
      · intro id hid
        obtain ⟨hcid, _⟩ := Connection.ids_connect (z := storing) 1 none true true
          (BitVec.ofNat 128 (n + 1)) (BitVec.ofNat 16 (n + 1)) 2 (crowded n).options
        have hne : BitVec.ofNat 128 (n + 1) ≠ id := by
          rintro rfl
          simp at hid
          omega
        simp only [reduceIte, insert, hcid, Std.ExtTreeMap.getElem?_insert,
          Std.LawfulEqCmp.compare_eq_iff_eq, if_neg hne]
        exact hfree id (by omega)

/-- The H0 of a peer with the long identifier 65536. -/
def h0OfLatecomer : Packet := { header := { type := TypeID.h0 }, data := leBytes 16 (2 ^ 16) }

/-- When all short identifiers are in use, the socket is not full, and no search ends. -/
theorem endless_of_crowded {n : ℕ} (hn : n + 1 = 2 ^ 16) :
    (crowded n).isFull = false ∧
      (∀ random, (crowded n).acquires (.receive h0OfLatecomer 2 { random := random }) =
        some random) ∧
      ∀ random fuel, acquireLoop (crowded n).shortConnectionIDs fuel random = none := by
  obtain ⟨hused, haccept, hshould, hfree⟩ := crowded_spec (n := n) (by omega)
  have hfull : (crowded n).isFull = false := by
    have hcard : (crowded n).shortConnectionIDs.card = n := by
      rw [hused, Finset.card_image_of_injOn, Finset.card_range]
      intro i hi j hj hij
      have := congrArg BitVec.toNat hij
      simp at this hi hj
      omega
    rw [isFull, hcard, decide_eq_false_iff_not]
    omega
  have hlookup : (getLookUp h0OfLatecomer).1 = { longID := 2 ^ 16 } := by decide +kernel
  refine ⟨hfull, ?_, ?_⟩
  · intro random
    rw [acquires, if_pos]
    refine ⟨?_, hfull, ?_, ?_, haccept, ?_⟩
    · rw [hlookup, findConnection, if_pos (by decide)]
      have hid : (2 ^ 16 : LongConnectionID).toNat = 2 ^ 16 := by decide
      apply hfree
      dsimp only
      rw [hid]
      omega
    · rw [header_getLookUp, h0OfLatecomer]
    · rw [hlookup]
      decide
    · rw [hshould]
      simp
  · intro random fuel
    by_contra hsome
    obtain ⟨id, hid⟩ := Option.ne_none_iff_exists'.mp hsome
    obtain ⟨hzero, hfree⟩ := acquireLoop_free fuel random hid
    apply hfree
    have hpos : id.toNat ≠ 0 := fun h => hzero (BitVec.eq_of_toNat_eq h)
    have hlt := id.isLt
    rw [hused, Finset.mem_image]
    refine ⟨id.toNat - 1, Finset.mem_range.mpr (by omega), ?_⟩
    rw [show id.toNat - 1 + 1 = id.toNat by omega, BitVec.ofNat_toNat, BitVec.setWidth_eq]

/-- **With 65535 connections the search never ends**, neither in `connect` nor in
`generateConnection`, as the socket is then not full. -/
theorem endless_when_crowded :
    Reachable storing (crowded 65535) ∧ (crowded 65535).isFull = false ∧
      (∀ random, (crowded 65535).acquires (.connect 2 none true true (2 ^ 16) random true) =
        some random) ∧
      (∀ random, (crowded 65535).acquires (.receive h0OfLatecomer 2 { random := random }) =
        some random) ∧
      ∀ random fuel, acquireLoop (crowded 65535).shortConnectionIDs fuel random = none :=
  ⟨reachable_crowded _, (endless_of_crowded (by norm_num)).1, fun _ => rfl,
    (endless_of_crowded (by norm_num)).2⟩

end Socket
end MrUDP
