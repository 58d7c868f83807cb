import MrUDP.Connection.Outstanding
import MrUDP.Endpoint.Sending

/-!
# How the user learns of the end of a connection

The connection is closed from many places, and a handler that is called may close it again.  Two
flags guard what happens then: `closed`, and `userDataDisposed` for the handlers.

Once the handlers are registered, the close handler is called at most once, the receive handler
is not called after it, and the finish timeout is scheduled at most once.  That the close handler
has been called when the connection is closed, or when `mrudp_close_connection` has returned, is
so if the handlers were registered before either of the two: `openUser` looks at neither.

## Main definitions

* `Once`, `Timely`, `Silenced`, `Announced`: properties of what was recorded in a run.
* `Endpoint.Notified`: what the record and the flags have to do with each other.
* `Endpoint.notices`: what holds of the record of every run.
-/

namespace MrUDP
open Machine
open Connection (Input)

namespace Notification

def isRegistered : Notification → Bool
  | .registered _ _ => true
  | _ => false

def isDelivered : Notification → Bool
  | .delivered _ _ => true
  | _ => false

def isClosed : Notification → Bool
  | .closed _ => true
  | _ => false

def isScheduled : Notification → Bool
  | .scheduled _ => true
  | _ => false

/-- Nothing of the user's. -/
def isNeutral : Notification → Bool
  | .challenged _ _ | .encrypted _ _ | .faulted _ => true
  | _ => false

end Notification

namespace Endpoint
open Notification

/-! ## The record -/

/-- Handlers were registered once, with a close handler among them. -/
def Once (log : List Notification) : Prop :=
  ∃ receiveHandler, log.filter isRegistered = [.registered receiveHandler true]

/-- Handlers were registered before the connection was closed, and before
`mrudp_close_connection` has returned. -/
def Timely (log : List Notification) : Prop :=
  log.Pairwise fun a b => b.isRegistered = true → a ≠ .closing ∧ a ≠ .returned

/-- The receive handler is not called after the close handler. -/
def Silenced (log : List Notification) : Prop :=
  log.Pairwise fun a b => a.isClosed = true → b.isDelivered = false

/-- The close handler has been called when `mrudp_close_connection` returns. -/
def Announced (log : List Notification) : Prop :=
  ∀ before, before ++ [.returned] <+: log → ∃ event, .closed event ∈ before

variable {log : List Notification} {n : Notification}

theorem once_append (hn : n.isRegistered = false) : Once (log ++ [n]) ↔ Once log := by
  simp [Once, List.filter_append, hn]

theorem once_append_registered {receiveHandler closeHandler : Bool}
    (h : Once (log ++ [.registered receiveHandler closeHandler])) :
    log.filter isRegistered = [] ∧ closeHandler = true := by
  obtain ⟨r, hr⟩ := h
  rw [List.filter_append] at hr
  have hone : [Notification.registered receiveHandler closeHandler].filter isRegistered =
      [.registered receiveHandler closeHandler] := rfl
  rw [hone] at hr
  cases hlog : log.filter isRegistered with
  | nil =>
      rw [hlog] at hr
      cases hr
      exact ⟨rfl, rfl⟩
  | cons m ms =>
      rw [hlog] at hr
      simp at hr

theorem timely_append :
    Timely (log ++ [n]) ↔
      Timely log ∧ (n.isRegistered = true → ∀ m ∈ log, m ≠ .closing ∧ m ≠ .returned) := by
  simp only [Timely, List.pairwise_append, List.pairwise_singleton, true_and, List.mem_singleton,
    forall_eq]
  exact and_congr_right fun _ => ⟨fun h hn m hm => h m hm hn, fun h m hm hn => h hn m hm⟩

theorem silenced_append :
    Silenced (log ++ [n]) ↔
      Silenced log ∧ (n.isDelivered = true → ∀ m ∈ log, m.isClosed = false) := by
  simp only [Silenced, List.pairwise_append, List.pairwise_singleton, true_and,
    List.mem_singleton, forall_eq]
  refine and_congr_right fun _ => ⟨fun h hn m hm => ?_, fun h m hm hclosed => ?_⟩
  · by_contra hclosed
    rw [h m hm (by simpa using hclosed)] at hn
    cases hn
  · by_contra hn
    rw [h (by simpa using hn) m hm] at hclosed
    cases hclosed

theorem announced_append :
    Announced (log ++ [n]) ↔
      Announced log ∧ (n = .returned → ∃ event, .closed event ∈ log) := by
  constructor
  · intro h
    refine ⟨fun before hbefore => h before (hbefore.trans (List.prefix_append _ _)), ?_⟩
    rintro rfl
    exact h log (List.prefix_refl _)
  · rintro ⟨h, hn⟩ before hbefore
    rcases List.prefix_concat_iff.mp hbefore with heq | hprefix
    · obtain ⟨rfl, hlast⟩ := List.append_inj' heq rfl
      cases hlast
      exact hn rfl
    · exact h before hprefix

/-! ## The record and the flags -/

/-- What the record has to do with `closed`, `userDataDisposed` and the handlers. -/
structure Agree (log : List Notification)
    (closed userDataDisposed receiveHandler closeHandler : Bool) : Prop where
  closing : closed = true ↔ .closing ∈ log
  unscheduled : closed = false → log.countP isScheduled = 0
  scheduled : log.countP isScheduled ≤ 1
  handlers : userDataDisposed = true → receiveHandler = false ∧ closeHandler = false
  unregistered : log.filter isRegistered = [] →
    userDataDisposed = true ∧ ∀ m ∈ log, m.isClosed = false
  waiting : Once log → userDataDisposed = false → closeHandler = true ∧ log.countP isClosed = 0
  told : Once log → userDataDisposed = true → log.countP isClosed = 1
  silenced : Once log → Silenced log
  announced : Once log → Timely log → Announced log

theorem exists_closed (h : log.countP isClosed ≠ 0) : ∃ event, .closed event ∈ log := by
  obtain ⟨m, hm, hclosed⟩ := List.countP_pos_iff.mp (Nat.pos_of_ne_zero h)
  cases m with
  | closed event => exact ⟨event, hm⟩
  | registered | delivered | closing | scheduled | returned | challenged | encrypted | faulted =>
      cases hclosed

namespace Agree

section
variable {closed closed' disposed disposed' receiveHandler receiveHandler' closeHandler
  closeHandler' : Bool}

/-- Something other than a registration is recorded. -/
theorem append (h : Agree log closed disposed receiveHandler closeHandler)
    (hn : n.isRegistered = false) (hclosing : closed' = true ↔ closed = true ∨ n = .closing)
    (hscheduled : n.isScheduled = true → closed' = true ∧ log.countP isScheduled = 0)
    (hhandlers : disposed' = true → receiveHandler' = false ∧ closeHandler' = false)
    (hopen : disposed' = false → disposed = false ∧ closeHandler' = closeHandler ∧
      n.isClosed = false)
    (hdispose : disposed' = true →
      disposed = true ∧ n.isClosed = false ∨ disposed = false ∧ n.isClosed = true)
    (hdelivered : n.isDelivered = true → disposed = false)
    (hreturned : n = .returned → Once log → log.countP isClosed ≠ 0) :
    Agree (log ++ [n]) closed' disposed' receiveHandler' closeHandler' where
  closing := by
    rw [hclosing, h.closing, List.mem_append, List.mem_singleton, eq_comm (a := n)]
  unscheduled hopen' := by
    have hclosed : closed = false := by
      by_contra hclosed
      rw [hclosing.mpr (.inl (by simpa using hclosed))] at hopen'
      cases hopen'
    have hnot : n.isScheduled = false := by
      by_contra hnot
      rw [(hscheduled (by simpa using hnot)).1] at hopen'
      cases hopen'
    rw [List.countP_append, h.unscheduled hclosed, List.countP_singleton, if_neg (by simp [hnot])]
  scheduled := by
    rw [List.countP_append, List.countP_singleton]
    split
    next hsome => rw [(hscheduled hsome).2]
    · exact h.scheduled
  handlers := hhandlers
  unregistered hnone := by
    rw [List.filter_append, List.append_eq_nil_iff] at hnone
    obtain ⟨hdisposed, hclosed⟩ := h.unregistered hnone.1
    cases hdisposed' : disposed' with
    | false =>
        rw [(hopen hdisposed').1] at hdisposed
        cases hdisposed
    | true =>
        refine ⟨rfl, fun m hm => ?_⟩
        rcases List.mem_append.mp hm with hm | hm
        · exact hclosed m hm
        · rw [List.mem_singleton.mp hm]
          rcases hdispose hdisposed' with ⟨_, hnot⟩ | ⟨hfalse, _⟩
          · exact hnot
          · rw [hfalse] at hdisposed
            cases hdisposed
  waiting honce hdisposed' := by
    obtain ⟨hdisposed, hhandler, hnot⟩ := hopen hdisposed'
    obtain ⟨hwaiting, hcount⟩ := h.waiting ((once_append hn).mp honce) hdisposed
    rw [hhandler, List.countP_append, List.countP_singleton, if_neg (by simp [hnot]), hcount]
    exact ⟨hwaiting, rfl⟩
  told honce hdisposed' := by
    rw [once_append hn] at honce
    rw [List.countP_append, List.countP_singleton]
    rcases hdispose hdisposed' with ⟨hdisposed, hnot⟩ | ⟨hdisposed, hclosed⟩
    · rw [if_neg (by simp [hnot]), h.told honce hdisposed]
    · rw [if_pos hclosed, (h.waiting honce hdisposed).2]
  silenced honce := by
    rw [once_append hn] at honce
    refine silenced_append.mpr ⟨h.silenced honce, fun hsome m hm => ?_⟩
    have hcount := (h.waiting honce (hdelivered hsome)).2
    simpa using List.countP_eq_zero.mp hcount m hm
  announced honce htimely := by
    rw [once_append hn] at honce
    refine announced_append.mpr ⟨h.announced honce (timely_append.mp htimely).1, ?_⟩
    exact fun hn => exists_closed (hreturned hn honce)

/-- Handlers are registered. -/
theorem register (h : Agree log closed true receiveHandler closeHandler)
    (receiveHandler' closeHandler' : Bool) :
    Agree (log ++ [.registered receiveHandler' closeHandler']) closed false receiveHandler'
      closeHandler' where
  closing := by simp [h.closing]
  unscheduled hopen := by simp [isScheduled, h.unscheduled hopen]
  scheduled := by simpa [isScheduled] using h.scheduled
  handlers hdisposed := by cases hdisposed
  unregistered hnone := by simp [isRegistered] at hnone
  waiting honce _ := by
    obtain ⟨hnone, hhandler⟩ := once_append_registered honce
    refine ⟨hhandler, ?_⟩
    have hcount : log.countP isClosed = 0 :=
      List.countP_eq_zero.mpr fun m hm => by simp [(h.unregistered hnone).2 m hm]
    simp [isClosed, hcount]
  told _ hdisposed := by cases hdisposed
  silenced honce := by
    obtain ⟨hnone, _⟩ := once_append_registered honce
    refine silenced_append.mpr ⟨?_, fun hsome => by cases hsome⟩
    refine List.pairwise_of_forall_mem_list fun a ha b _ hclosed => ?_
    rw [(h.unregistered hnone).2 a ha] at hclosed
    cases hclosed
  announced _ htimely := by
    obtain ⟨_, hbefore⟩ := timely_append.mp htimely
    refine announced_append.mpr ⟨fun before hprefix => ?_, fun hn => by cases hn⟩
    have hmem : .returned ∈ log := hprefix.subset (by simp)
    exact absurd rfl (hbefore rfl _ hmem).2

/-- The handlers are dropped, without a close handler to call. -/
theorem drop (h : Agree log closed false receiveHandler false) :
    Agree log closed true false false where
  __ := h
  handlers _ := ⟨rfl, rfl⟩
  unregistered hnone := ⟨rfl, (h.unregistered hnone).2⟩
  waiting _ hdisposed := by cases hdisposed
  told honce _ := by cases (h.waiting honce rfl).1

theorem neutral (h : Agree log closed disposed receiveHandler closeHandler)
    (hn : n.isNeutral = true) :
    Agree (log ++ [n]) closed disposed receiveHandler closeHandler := by
  cases n with
  | challenged | encrypted | faulted =>
      refine h.append rfl (by simp) (fun h => by cases h) h.handlers (fun h => ⟨h, rfl, rfl⟩)
        (fun h => .inl ⟨h, rfl⟩) (fun h => by cases h) fun h => by cases h
  | registered | delivered | closing | closed | scheduled | returned => cases hn

theorem deliver (h : Agree log closed false receiveHandler closeHandler) (data : Bytes)
    (reliability : Reliability) :
    Agree (log ++ [.delivered data reliability]) closed false receiveHandler closeHandler :=
  h.append rfl (by simp) (fun h => by cases h) h.handlers (fun h => ⟨h, rfl, rfl⟩)
    (fun h => .inl ⟨h, rfl⟩) (fun _ => rfl) fun h => by cases h

theorem close (h : Agree log false disposed receiveHandler closeHandler) :
    Agree (log ++ [.closing]) true disposed receiveHandler closeHandler :=
  h.append rfl (by simp) (fun h => by cases h) h.handlers (fun h => ⟨h, rfl, rfl⟩)
    (fun h => .inl ⟨h, rfl⟩) (fun h => by cases h) fun h => by cases h

theorem tell (h : Agree log closed false receiveHandler closeHandler) (event : Event) :
    Agree (log ++ [.closed event]) closed true false false :=
  h.append rfl (by simp) (fun h => by cases h) (fun _ => ⟨rfl, rfl⟩) (fun h => by cases h)
    (fun _ => .inr ⟨rfl, rfl⟩) (fun h => by cases h) fun h => by cases h

theorem schedule (h : Agree log true disposed receiveHandler closeHandler)
    (hcount : log.countP isScheduled = 0) (when : Timepoint) :
    Agree (log ++ [.scheduled when]) true disposed receiveHandler closeHandler :=
  h.append rfl (by simp) (fun _ => ⟨rfl, hcount⟩) h.handlers (fun h => ⟨h, rfl, rfl⟩)
    (fun h => .inl ⟨h, rfl⟩) (fun h => by cases h) fun h => by cases h

theorem leave (h : Agree log closed disposed receiveHandler closeHandler)
    (htold : Once log → log.countP isClosed ≠ 0) :
    Agree (log ++ [.returned]) closed disposed receiveHandler closeHandler :=
  h.append rfl (by simp) (fun h => by cases h) h.handlers (fun h => ⟨h, rfl, rfl⟩)
    (fun h => .inl ⟨h, rfl⟩) (fun h => by cases h) fun _ => htold

end
end Agree

/-! ## What every method keeps -/

/-- The record and the flags agree. -/
def Agrees (e : Endpoint) : Prop :=
  Agree e.log e.closed e.userDataDisposed e.receiveHandler e.closeHandler

/-- Between the calls: once the connection is closed, the handlers are dropped. -/
structure Notified (e : Endpoint) : Prop where
  agrees : e.Agrees
  settled : Once e.log → Timely e.log → e.closed = true → e.userDataDisposed = true

/-- What every method keeps: the record grows, and no finish timeout is scheduled once the
connection is closed. -/
structure Tells (e e' : Endpoint) : Prop where
  log : e.log <+: e'.log
  closed : e.closed = true →
    e'.closed = true ∧ e'.log.countP isScheduled = e.log.countP isScheduled
  notified : Notified e → Notified e'

theorem Tells.refl (e : Endpoint) : Tells e e := ⟨List.prefix_refl _, fun h => ⟨h, rfl⟩, id⟩

theorem Tells.trans {e₁ e₂ e₃ : Endpoint} (h : Tells e₁ e₂) (h' : Tells e₂ e₃) : Tells e₁ e₃ where
  log := h.log.trans h'.log
  closed hclosed := by
    obtain ⟨hclosed₂, hcount⟩ := h.closed hclosed
    obtain ⟨hclosed₃, hcount'⟩ := h'.closed hclosed₂
    exact ⟨hclosed₃, hcount'.trans hcount⟩
  notified hnotified := h'.notified (h.notified hnotified)

/-- Nothing of the user's is recorded, and the flags are left as they are. -/
theorem tells_of_neutral {e e' : Endpoint} (notes : List Notification)
    (hnotes : ∀ n ∈ notes, n.isNeutral = true) (hlog : e'.log = e.log ++ notes)
    (hclosed : e'.closed = e.closed) (hdisposed : e'.userDataDisposed = e.userDataDisposed)
    (hreceive : e'.receiveHandler = e.receiveHandler) (hclose : e'.closeHandler = e.closeHandler) :
    Tells e e' := by
  induction notes generalizing e with
  | nil =>
      rw [List.append_nil] at hlog
      refine ⟨by rw [hlog], fun h => ⟨hclosed.trans h, by rw [hlog]⟩, fun h => ⟨?_, ?_⟩⟩
      · rw [Agrees, hlog, hclosed, hdisposed, hreceive, hclose]
        exact h.agrees
      · rw [hlog, hclosed, hdisposed]
        exact h.settled
  | cons n notes ih =>
      have hn : n.isNeutral = true := hnotes n (by simp)
      have hone : Tells e (e.note n) := by
        refine ⟨List.prefix_append _ _, fun h => ⟨h, ?_⟩, fun h => ⟨h.agrees.neutral hn, ?_⟩⟩
        · cases n with
          | challenged | encrypted | faulted => simp [note, isScheduled]
          | registered | delivered | closing | closed | scheduled | returned => cases hn
        · have hregistered : n.isRegistered = false := by cases n <;> first | rfl | cases hn
          exact fun honce htimely =>
            h.settled ((once_append hregistered).mp honce) (timely_append.mp htimely).1
      refine hone.trans (ih (fun m hm => hnotes m (List.mem_cons_of_mem _ hm)) ?_ hclosed hdisposed
        hreceive hclose)
      rw [hlog, note, List.append_assoc]
      rfl

theorem tells_of_sent {e e' : Endpoint} (h : Sent e e') : Tells e e' := by
  obtain ⟨_, _, _, _, notes, hnotes, rfl⟩ := h
  refine tells_of_neutral notes (fun n hn => ?_) rfl rfl rfl rfl rfl
  have hcipher := hnotes n hn
  cases n with
  | encrypted | faulted => rfl
  | registered | delivered | closing | closed | scheduled | returned | challenged => cases hcipher

section
variable {react : Endpoint → Endpoint} {e : Endpoint}

/-- After `closeUser` the handlers are dropped, or the handler that was called has registered
handlers again. -/
theorem notified_closeUser (hreact : ∀ e, Tells e (react e)) (event : Event) (h : e.Agrees) :
    Notified (closeUser react event e) := by
  rw [closeUser]
  split
  next hdisposed => exact ⟨h, fun _ _ _ => hdisposed⟩
  next hdisposed =>
    rw [Agrees, Bool.eq_false_iff.mpr hdisposed] at h
    dsimp only
    split
    · exact (hreact _).notified ⟨h.tell event, fun _ _ _ => rfl⟩
    next hhandler =>
      rw [Bool.eq_false_iff.mpr hhandler] at h
      exact ⟨h.drop, fun _ _ _ => rfl⟩

theorem tells_closeUser (hreact : ∀ e, Tells e (react e)) (event : Event) :
    Tells e (closeUser react event e) := by
  have hnotified : Notified e → Notified (closeUser react event e) :=
    fun h => notified_closeUser hreact event h.agrees
  rw [closeUser] at hnotified ⊢
  split
  · exact .refl e
  next hdisposed =>
    rw [if_neg hdisposed] at hnotified
    dsimp only at hnotified ⊢
    split
    next hhandler =>
      rw [if_pos hhandler] at hnotified
      have htail := hreact (note (.closed event)
        { e with
          userDataDisposed := true
          receiveHandler := false
          closeHandler := false
          closeEvents := e.closeEvents ++ [event] })
      refine ⟨(List.prefix_append _ _).trans htail.log, fun hclosed => ?_, hnotified⟩
      obtain ⟨hclosed', hcount⟩ := htail.closed hclosed
      exact ⟨hclosed', hcount.trans (by simp [note, isScheduled])⟩
    next hhandler =>
      rw [if_neg hhandler] at hnotified
      exact ⟨List.prefix_refl _, fun hclosed => ⟨hclosed, rfl⟩, hnotified⟩

/-- After `closeUser` the close handler has been called. -/
theorem told_closeUser (hreact : ∀ e, Tells e (react e)) (event : Event) (h : e.Agrees)
    (honce : Once (closeUser react event e).log) :
    (closeUser react event e).log.countP isClosed ≠ 0 := by
  rw [closeUser] at honce ⊢
  split at honce
  next hdisposed =>
    rw [if_pos hdisposed, h.told honce hdisposed]
    exact one_ne_zero
  next hdisposed =>
    rw [if_neg hdisposed]
    dsimp only at honce ⊢
    split at honce
    next hhandler =>
      rw [if_pos hhandler]
      refine Nat.ne_of_gt (List.countP_pos_iff.mpr ⟨.closed event, ?_, rfl⟩)
      exact (hreact _).log.subset (by simp [note])
    next hhandler => exact absurd (h.waiting honce (Bool.eq_false_iff.mpr hdisposed)).1 hhandler

theorem tells_closeWith (now : Timepoint) (hreact : ∀ e, Tells e (react e)) (event : Event) :
    Tells e (closeWith now react event e) := by
  rw [closeWith]
  split
  · exact .refl e
  next hopen =>
    have htail := tells_closeUser (e := note .closing { e with closed := true }) hreact event
    obtain ⟨hclosed, hcount⟩ := htail.closed rfl
    refine ⟨?_, fun h => absurd h hopen, fun h => ?_⟩
    · exact (List.prefix_append _ _).trans (htail.log.trans (List.prefix_append _ _))
    · have hagrees := h.agrees
      rw [Agrees, Bool.eq_false_iff.mpr hopen] at hagrees
      have hnone : (note .closing { e with closed := true }).log.countP isScheduled = 0 := by
        simpa [note, isScheduled] using hagrees.unscheduled rfl
      have hclosing : (note .closing { e with closed := true }).Agrees := hagrees.close
      have hafter := notified_closeUser hreact event hclosing
      have hlast := hafter.agrees
      rw [Agrees, hclosed] at hlast
      refine ⟨?_, fun honce htimely _ => ?_⟩
      · rw [Agrees, finishWhenReady]
        show Agree _ (closeUser react event _).closed _ _ _
        rw [hclosed]
        exact hlast.schedule (hcount.trans hnone) _
      · exact hafter.settled ((once_append rfl).mp honce) (timely_append.mp htimely).1 hclosed

theorem tells_openUser (options : Option ConnectionOptions) (receiveHandler closeHandler : Bool) :
    Tells e (e.openUser options receiveHandler closeHandler) := by
  rw [openUser]
  cases hdisposed : e.userDataDisposed with
  | false =>
      refine tells_of_neutral [] (by simp) ?_ ?_ ?_ ?_ ?_
      all_goals cases options <;> simp [Connection.openUser, hdisposed]
  | true =>
      have hflags : (e.toConnection.openUser options receiveHandler closeHandler).closed = e.closed ∧
          (e.toConnection.openUser options receiveHandler closeHandler).userDataDisposed = false ∧
          (e.toConnection.openUser options receiveHandler closeHandler).receiveHandler =
            receiveHandler ∧
          (e.toConnection.openUser options receiveHandler closeHandler).closeHandler =
            closeHandler := by
        cases options <;> simp [Connection.openUser, hdisposed]
      obtain ⟨hclosed, hdisposed', hreceive, hclose⟩ := hflags
      rw [if_pos rfl]
      refine ⟨List.prefix_append _ _, fun h => ⟨hclosed.trans h, ?_⟩, fun h => ⟨?_, ?_⟩⟩
      · simp [note, isScheduled]
      · have hagrees := h.agrees
        rw [Agrees, hdisposed] at hagrees
        rw [Agrees]
        simp only [note, hclosed, hdisposed', hreceive, hclose]
        exact hagrees.register receiveHandler closeHandler
      · intro _ htimely hclosed'
        have hclosing := h.agrees.closing.mp (hclosed.symm.trans hclosed')
        exact absurd rfl ((timely_append.mp htimely).2 rfl _ hclosing).1

end

/-- Every method is made of steps that keep the record. -/
theorem walk_tells (z : Zlib) (C : Cipher) :
    WalkAll z C (fun _ => True) (fun _ _ => True) Tells where
  refl := .refl
  trans := .trans
  call e now _ _ := tells_of_sent (sent_call z C now e _)
  send e now _ _ := tells_of_sent (sent_send C now e _ _)
  challenged e now path :=
    tells_of_neutral [.challenged now path] (by simp [isNeutral]) rfl rfl rfl rfl rfl
  silent e _ _ _ _ _ _ :=
    tells_of_neutral [] (by simp) (by simp) rfl rfl rfl rfl
  openUser _ options receiveHandler closeHandler :=
    tells_openUser options receiveHandler closeHandler
  deliver := by
    intro e react data reliability hreact hhandler
    refine Tells.trans ?_ (hreact _)
    refine ⟨List.prefix_append _ _, fun h => ⟨h, ?_⟩, fun h => ⟨?_, ?_⟩⟩
    · simp [note, isScheduled]
    · have hagrees := h.agrees
      have hdisposed : e.userDataDisposed = false := by
        by_contra hdisposed
        rw [(hagrees.handlers (by simpa using hdisposed)).1] at hhandler
        cases hhandler
      rw [Agrees] at hagrees ⊢
      simp only [note]
      rw [hdisposed] at hagrees ⊢
      exact hagrees.deliver data reliability
    · exact fun honce htimely => h.settled ((once_append rfl).mp honce) (timely_append.mp htimely).1
  closeUser event hreact := tells_closeUser hreact event
  closeWith now _ event hreact := tells_closeWith now hreact event
  leave := by
    intro e react hreact
    have hclose := tells_closeUser (e := e) hreact .closed
    refine ⟨hclose.log.trans (List.prefix_append _ _), fun h => ?_, fun h => ?_⟩
    · obtain ⟨hclosed, hcount⟩ := hclose.closed h
      exact ⟨hclosed, Eq.trans (by simp [note, isScheduled]) hcount⟩
    · have hafter := hclose.notified h
      refine ⟨hafter.agrees.leave (told_closeUser hreact .closed h.agrees), ?_⟩
      exact fun honce htimely =>
        hafter.settled ((once_append rfl).mp honce) (timely_append.mp htimely).1
  decrypt := by
    intro e packet _
    rw [decrypt]
    cases e.crypto with
    | none => exact .refl e
    | some crypto => exact tells_of_neutral [] (by simp) (by simp) rfl rfl rfl rfl
  heard _ _ _ := trivial
  migrate e path := tells_of_neutral [] (by simp) (by simp) rfl rfl rfl rfl

/-! ## Every run -/

theorem notified_fresh (crypto : Option ConnectionCrypto) (id : LongConnectionID)
    (localID : ShortConnectionID) (remoteAddress : Address) (options : ConnectionOptions) :
    Notified (fresh crypto id localID remoteAddress options) where
  agrees :=
    { closing := by simp [fresh, Connection.fresh]
      unscheduled _ := rfl
      scheduled := Nat.zero_le 1
      handlers _ := ⟨rfl, rfl⟩
      unregistered _ := ⟨rfl, by simp [fresh]⟩
      waiting _ hdisposed := by cases hdisposed
      told := by
        rintro ⟨_, honce⟩
        cases honce
      silenced _ := .nil
      announced _ _ before hbefore := by simp [fresh] at hbefore }
  settled := by
    rintro ⟨_, honce⟩
    cases honce

theorem notified_of_started {z : Zlib} {C : Cipher} {e : Endpoint} (h : Started z C e) :
    Notified e := by
  cases h with
  | connected crypto id localID remoteAddress socketOptions now options receiveHandler
      closeHandler =>
      exact ((walk_tells z C).connect now options receiveHandler closeHandler).notified
        (notified_fresh _ _ _ _ _)
  | created crypto id localID remoteAddress socketOptions now =>
      exact ((walk_tells z C).probe _ _).notified (notified_fresh _ _ _ _ _)

theorem notified_run {z : Zlib} {C : Cipher} {e : Endpoint} (h : Started z C e)
    (inputs : List (Timepoint × Input)) : Notified (run (step z C) e inputs) :=
  run_invariant_of_step Notified
    (fun e input =>
      ((walk_tells z C).step e (receives_of_forall (fun _ _ => trivial) e input)).notified)
    (notified_of_started h) inputs

/-- **The close handler is called at most once and last**: in every run in which handlers are
registered once, the close handler is called at most once, the receive handler is not called
after it, and the finish timeout is scheduled at most once.  If the handlers were registered
before the connection was closed and before `mrudp_close_connection` had returned, the close
handler has been called once the connection is closed, and when `mrudp_close_connection`
returns. -/
theorem notices (z : Zlib) (C : Cipher) {e₀ : Endpoint} (h : Started z C e₀)
    (inputs : List (Timepoint × Input)) (honce : Once (run (step z C) e₀ inputs).log) :
    let e := run (step z C) e₀ inputs
    e.log.countP isClosed ≤ 1 ∧ Silenced e.log ∧ e.log.countP isScheduled ≤ 1 ∧
      (Timely e.log →
        (e.closed = true → ∃ event, .closed event ∈ e.log) ∧ Announced e.log) := by
  have hnotified := notified_run h inputs
  intro e
  have hagrees : e.Agrees := hnotified.agrees
  refine ⟨?_, hagrees.silenced honce, hagrees.scheduled, fun htimely => ⟨fun hclosed => ?_, ?_⟩⟩
  · cases hdisposed : e.userDataDisposed with
    | false =>
        rw [(hagrees.waiting honce hdisposed).2]
        exact Nat.zero_le 1
    | true => exact (hagrees.told honce hdisposed).le
  · apply exists_closed
    rw [hagrees.told honce (hnotified.settled honce htimely hclosed)]
    exact one_ne_zero
  · exact hagrees.announced honce htimely

/-! ## Runs -/

/-- Without encryption: the peer does not answer, and the close handler closes the connection
once more. -/
def unanswered : Endpoint :=
  run (step Connection.storing Cipher.marking)
    (connect Connection.storing Cipher.marking 0 none true true
      (fresh none 5 3 1 Connection.immediate))
    [(1000000000000, .probeTimeout [.close [] []])]

theorem notices_unanswered :
    unanswered.closed = true ∧ Timely unanswered.log ∧
      unanswered.log.countP isClosed ≤ 1 ∧ (∃ event, .closed event ∈ unanswered.log) ∧
      Announced unanswered.log := by
  have hclosed : unanswered.closed = true := by decide +kernel
  have htimely : Timely unanswered.log := by
    unfold Timely
    decide +kernel
  obtain ⟨hcount, _, _, hnotice⟩ := notices Connection.storing Cipher.marking
    (.connected none 5 3 1 Connection.immediate 0 none true true)
    [(1000000000000, .probeTimeout [.close [] []])] ⟨true, by decide +kernel⟩
  obtain ⟨htold, hannounced⟩ := hnotice htimely
  exact ⟨hclosed, htimely, hcount, htold hclosed, hannounced⟩

/-- A connection that the socket created times out before the user accepts it. -/
def acceptedLate : List (Timepoint × Input) :=
  [(1000000000000, .probeTimeout []), (1000000000001, .user (.accept none true true))]

/-- **A close handler that is registered too late is not called**: the connection is closed. -/
theorem unnoticed_acceptedLate :
    let e₀ := start 0 (fresh none 5 3 1 Connection.immediate)
    let e := run (step Connection.storing Cipher.marking) e₀ acceptedLate
    Started Connection.storing Cipher.marking e₀ ∧ Once e.log ∧ e.closed = true ∧
      e.closeHandler = true ∧ ∀ event, .closed event ∉ e.log := by
  refine ⟨.created none 5 3 1 Connection.immediate 0, ⟨true, by decide +kernel⟩,
    by decide +kernel, by decide +kernel, fun event hevent => ?_⟩
  have hnone : (run (step Connection.storing Cipher.marking)
      (start 0 (fresh none 5 3 1 Connection.immediate)) acceptedLate).log.countP isClosed = 0 := by
    decide +kernel
  exact List.countP_eq_zero.mp hnone _ hevent rfl

end Endpoint
end MrUDP
