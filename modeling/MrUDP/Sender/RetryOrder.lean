import MrUDP.Lib.Ordered
import MrUDP.Sender.Calls
import MrUDP.Sender.Tracking

/-!
# Which packet is retried

`Retrier::getNextRetry` of `mrudp/sender/Retrier.cpp` takes the first entry of the window, or the
first one with priority: first in the order of the 16-bit identifiers, which is meant to be the
order in which the packets were sent.  It is, up to the end of a turn of the identifiers.

## Main definitions

* `Retrier.candidates`: the entries one of which is to be retried.
* `Retrier.RetriesOldest`: it is the one that was sent first.
* `Retrier.SameTurn`: all of them were numbered in one turn.
-/

namespace MrUDP
open Std (ExtTreeMap ExtTreeSet)
open Machine

namespace Retrier

/-- The entries with priority if there are any, and otherwise all. -/
def candidates (r : Retrier) : List (PacketID × Retry) :=
  if r.window.toList.any fun entry => entry.2.priority then
    r.window.toList.filter fun entry => entry.2.priority
  else r.window.toList

/-- The next retry is that of the candidate that was sent first. -/
def RetriesOldest (r : Retrier) : Prop :=
  ∃ next, r.getNextRetry = some next ∧ next ∈ r.candidates ∧
    ∀ entry ∈ r.candidates, next.2.serial ≤ entry.2.serial

/-- The candidates were numbered in one turn of the identifiers. -/
def SameTurn (r : Retrier) : Prop :=
  ∀ entry ∈ r.candidates, ∀ entry' ∈ r.candidates,
    entry.2.serial / 2 ^ 16 = entry'.2.serial / 2 ^ 16

instance (r : Retrier) : Decidable r.SameTurn :=
  inferInstanceAs (Decidable (∀ entry ∈ r.candidates, ∀ entry' ∈ r.candidates, _))

variable {r : Retrier}

theorem compare_lt_iff (k k' : PacketID) : compare k k' = .lt ↔ k < k' :=
  compareOfLessAndEq_eq_lt

/-- The candidates are entries of the window. -/
theorem window_of_candidates {entry : PacketID × Retry} (h : entry ∈ r.candidates) :
    r.window[entry.1]? = some entry.2 := by
  apply ExtTreeMap.mem_toList_iff_getElem?_eq_some.mp
  rw [candidates] at h
  split at h
  · exact List.mem_of_mem_filter h
  · exact h

/-- The candidates are in the order of their identifiers. -/
theorem ordered_candidates (r : Retrier) :
    r.candidates.Pairwise fun entry entry' => entry.1 < entry'.1 := by
  have hordered : r.window.toList.Pairwise fun entry entry' => entry.1 < entry'.1 :=
    ExtTreeMap.ordered_keys_toList.imp fun h => (compare_lt_iff _ _).mp h
  rw [candidates]
  split
  · exact hordered.filter _
  · exact hordered

/-- **The next retry is that of the first candidate.** -/
theorem getNextRetry_eq (h : r.PriorityAgrees) : r.getNextRetry = r.candidates.head? := by
  -- An entry has priority if its identifier is in the set.
  have hflag : ∀ {k retry}, (k, retry) ∈ r.window.toList →
      (retry.priority = true ↔ k ∈ r.priority) := by
    intro k retry hmem
    rw [h k, ExtTreeMap.mem_toList_iff_getElem?_eq_some.mp hmem]
    simp
  rw [getNextRetry]
  split
  next hempty =>
    have hnil : r.window.toList = [] := by
      rw [ExtTreeMap.toList_eq_nil_iff]
      exact ExtTreeMap.isEmpty_iff.mp hempty
    rw [candidates, hnil]
    rfl
  · split
    next id hid =>
      obtain ⟨retry, hretry⟩ := Option.isSome_iff_exists.mp (h.isSome_window hid)
      have hmem : (id, retry) ∈ r.window.toList :=
        ExtTreeMap.mem_toList_iff_getElem?_eq_some.mpr hretry
      have hpriority : retry.priority = true :=
        (hflag hmem).mpr (ExtTreeSet.mem_toList.mp (List.mem_of_head? hid))
      have hany : (r.window.toList.any fun entry => entry.2.priority) = true :=
        List.any_eq_true.mpr ⟨_, hmem, hpriority⟩
      have hcandidates : (id, retry) ∈ r.candidates := by
        rw [candidates, if_pos hany]
        exact List.mem_filter.mpr ⟨hmem, hpriority⟩
      rw [hretry, Option.map_some, eq_comm]
      refine Ordered.head?_eq_some_of_least r.ordered_candidates hcandidates ?_
      -- No identifier in the set comes before its first one.
      rintro ⟨k, retry'⟩ hk hlt
      rw [candidates, if_pos hany] at hk
      obtain ⟨hk, hkpriority⟩ := List.mem_filter.mp hk
      have hin := ExtTreeSet.mem_toList.mpr ((hflag hk).mp hkpriority)
      rcases Ordered.eq_or_before_of_head? ExtTreeSet.ordered_toList hid hin with rfl | hbefore
      · exact BitVec.lt_irrefl _ hlt
      · exact BitVec.lt_asymm hlt ((compare_lt_iff _ _).mp hbefore)
    next hnone =>
      have hany : ¬ (r.window.toList.any fun entry => entry.2.priority) = true := by
        intro hany
        obtain ⟨⟨k, retry⟩, hmem, hpriority⟩ := List.any_eq_true.mp hany
        have hin := ExtTreeSet.mem_toList.mpr ((hflag hmem).mp hpriority)
        rw [List.head?_eq_none_iff.mp hnone] at hin
        cases hin
      rw [candidates, if_neg hany]

theorem candidates_ne_nil (h : r.window.isEmpty = false) : r.candidates ≠ [] := by
  have hne : r.window.toList ≠ [] := by
    intro hnil
    rw [← ExtTreeMap.isEmpty_toList, hnil] at h
    cases h
  rw [candidates]
  split
  next hany =>
    obtain ⟨entry, hmem, hpriority⟩ := List.any_eq_true.mp hany
    exact List.ne_nil_of_mem (List.mem_filter.mpr ⟨hmem, hpriority⟩)
  · exact hne

/-- **The oldest packet is retried exactly if the candidates were numbered in one turn**, where
every entry is stored under the name of its number and none is a full turn older than another. -/
theorem retriesOldest_iff_sameTurn (hagrees : r.PriorityAgrees) (hne : r.window.isEmpty = false)
    (hname : ∀ entry ∈ r.candidates, entry.1 = serial 16 entry.2.serial)
    (hnear : ∀ entry ∈ r.candidates, ∀ entry' ∈ r.candidates,
      entry.2.serial < entry'.2.serial + 2 ^ 16) :
    r.RetriesOldest ↔ r.SameTurn := by
  obtain ⟨next, hnext⟩ := Option.isSome_iff_exists.mp
    (List.isSome_head?.mpr (candidates_ne_nil hne))
  have hmem := List.mem_of_head? hnext
  have hfirst : ∀ entry ∈ r.candidates, entry = next ∨ next.1 < entry.1 :=
    fun entry hentry => Ordered.eq_or_before_of_head? r.ordered_candidates hnext hentry
  constructor
  · rintro ⟨next', hnext', -, holdest⟩
    rw [getNextRetry_eq hagrees, hnext] at hnext'
    cases hnext'
    -- An entry of a later turn would have come first.
    have hturn : ∀ entry ∈ r.candidates, next.2.serial / 2 ^ 16 = entry.2.serial / 2 ^ 16 := by
      intro entry hentry
      by_contra hne
      have hlt : next.2.serial < entry.2.serial := by
        refine lt_of_le_of_ne (holdest entry hentry) fun heq => hne ?_
        rw [heq]
      have hbefore := serial_lt_of_turn hlt (hnear entry hentry next hmem) hne
      rw [← hname entry hentry, ← hname next hmem] at hbefore
      rcases hfirst entry hentry with rfl | hafter
      · exact lt_irrefl _ hlt
      · exact BitVec.lt_asymm hbefore hafter
    exact fun entry hentry entry' hentry' =>
      (hturn entry hentry).symm.trans (hturn entry' hentry')
  · intro hturn
    refine ⟨next, (getNextRetry_eq hagrees).trans hnext, hmem, fun entry hentry => ?_⟩
    rcases hfirst entry hentry with rfl | hlt
    · exact le_rfl
    · rw [hname entry hentry, hname next hmem,
        serial_lt_iff (hturn next hmem entry hentry)] at hlt
      exact hlt.le

end Retrier

namespace Sender

variable {s : Sender}

/-- No entry of the window is more than a turn old. -/
def Young (s : Sender) : Prop :=
  ∀ k paths n, s.retrier.outstanding k = some (paths, n) →
    s.packetIDGenerator.issued ≤ n + 2 ^ 16

/-- The window does not grow older than a turn. -/
theorem Young.track (h : s.Young) {input : Timepoint × RetryInput} (hrecent : s.Recent input) :
    (s.track input).Young := by
  have hsame : (∀ k entry, (s.track input).retrier.outstanding k = some entry →
      s.retrier.outstanding k = some entry) →
      (s.track input).packetIDGenerator = s.packetIDGenerator → (s.track input).Young := by
    intro hout hissued k paths n hk
    rw [hissued]
    exact h k paths n (hout k _ hk)
  obtain ⟨now, input⟩ := input
  cases input with
  | send paths priority =>
      intro k paths' n hk
      show s.packetIDGenerator.issued + 1 ≤ n + 2 ^ 16
      rcases (extends_sendReliablyMultipath s now paths priority).outstanding k paths' n hk with
        hold | ⟨hle, -⟩
      · obtain ⟨retry, hw, -, hserial⟩ := s.retrier.outstanding_eq_some.mp hold
        have hage := hrecent _ (ExtTreeMap.mem_toList_iff_getElem?_eq_some.mpr hw)
        dsimp only at hage
        omega
      · omega
  | ack ack =>
      exact hsame (fun k entry => outstanding_of_acknowledge) (acknowledge_frame now ack).2.2.1
  | close => exact hsame (fun k entry => Retrier.outstanding_of_close _) rfl
  | timeout maximumAttempts =>
      refine hsame (fun k entry hk => ?_) ?_
      · rwa [outstanding_timeout] at hk
      · rw [Sender.track]
        split <;> rfl

/-- What a run keeps is what the order of the retries rests on. -/
theorem retriesOldest_iff (htracked : s.Tracked) (hyoung : s.Young)
    (hne : s.retrier.window.isEmpty = false) :
    s.retrier.RetriesOldest ↔ s.retrier.SameTurn := by
  have hopen : s.retrier.status = .open := by
    cases hstatus : s.retrier.status with
    | «open» => rfl
    | closed => simp [htracked.closed hstatus] at hne
  have hout : ∀ entry ∈ s.retrier.candidates,
      s.retrier.outstanding entry.1 = some (entry.2.paths, entry.2.serial) := by
    intro entry hentry
    rw [Retrier.outstanding, Retrier.window_of_candidates hentry]
    rfl
  refine Retrier.retriesOldest_iff_sameTurn (htracked.priority hopen) hne
    (fun entry hentry => (htracked.serial _ _ _ (hout entry hentry)).1)
    fun entry hentry entry' hentry' => ?_
  have hlt := (htracked.serial _ _ _ (hout entry hentry)).2
  have hle := hyoung _ _ _ (hout entry' hentry')
  omega

/-- **Which packet is retried.**  In every run in which each packet gets an entry of its own: the
oldest packet, or the oldest one with priority, is retried exactly if the packets it is chosen from
were numbered in one turn of the identifiers. -/
theorem retries_oldest {inputs : List (Timepoint × RetryInput)}
    (halong : Along track Recent {} inputs)
    (hne : (run track {} inputs).retrier.window.isEmpty = false) :
    (run track {} inputs).retrier.RetriesOldest ↔ (run track {} inputs).retrier.SameTurn := by
  have hinv : (run track {} inputs).Tracked ∧ (run track {} inputs).Young := by
    refine run_invariant (fun s => s.Tracked ∧ s.Young)
      (fun s input h hrecent => ⟨h.1.track hrecent, h.2.track hrecent⟩) ⟨Tracked.init, ?_⟩ halong
    intro k paths n hk
    simp [Retrier.outstanding] at hk
  exact retriesOldest_iff hinv.1 hinv.2 hne

/-- A packet with priority is retried before an older one without. -/
theorem retries_oldest_challenge :
    let inputs : List (Timepoint × RetryInput) :=
      [(0, .send probing false), (1, .send challenging true), (2, .send probing false)]
    Along track Recent {} inputs ∧ (run track {} inputs).retrier.RetriesOldest := by
  intro inputs
  have halong : Along track Recent {} inputs := by decide +kernel
  exact ⟨halong, (retries_oldest halong (by decide +kernel)).mpr (by decide +kernel)⟩

/-! ## Across the end of a turn -/

/-- The last packet of a turn is not acknowledged, and the first one of the next turn is sent. -/
def straddling : List (Timepoint × RetryInput) :=
  lagging (2 ^ 16 - 2) ++
    [(0, .send probing false), (0, .ack ⟨0, 0⟩), (0, .send probing false)]

theorem along_lagging {n : ℕ} (hn : n < 2 ^ 16) : Along track Recent {} (lagging n) := by
  induction n with
  | zero => decide
  | succ n ih =>
      rw [lagging_succ, along_append]
      exact ⟨ih (by omega), (lagging_run (by omega)).recent hn 0 probing false, trivial, trivial⟩

/-- What is in the window when the last packet of a turn waits and the next turn begins. -/
theorem Lagging.straddle {n : ℕ} (h : Lagging n s) (hn : n + 2 = 2 ^ 16) :
    let s' := run track s
      [(0, .send probing false), (0, .ack ⟨0, 0⟩), (0, .send probing false)]
    Along track Recent s
        [(0, .send probing false), (0, .ack ⟨0, 0⟩), (0, .send probing false)] ∧
      s'.Tracked ∧ s'.retrier.status = .open ∧
      ∀ k, s'.stored k =
        if k = 0 then some (probing.setID 0, 2 ^ 16, false)
        else if k = 65535 then some (probing.setID 65535, 2 ^ 16 - 1, false)
        else none := by
  intro s'
  let s₁ := s.track (0, .send probing false)
  let s₂ := s₁.track (0, .ack ⟨0, 0⟩)
  have hid : s.packetIDGenerator.id = 65535 := by
    rw [IDGenerator.id, h.issued, show n + 1 = 65535 by omega]
    rfl
  have hissued : s.packetIDGenerator.issued = 2 ^ 16 - 1 := by rw [h.issued]; omega
  have hrecent : s.Recent (0, .send probing false) := h.recent (by omega) 0 probing false
  have htracked₁ : s₁.Tracked := h.tracked.send hrecent
  have hopen₁ : s₁.retrier.status = .open := (status_send 0 _ _).trans h.open
  obtain ⟨-, -, hgenerator₂, hstatus₂⟩ := acknowledge_frame (s := s₁) 0 ⟨0, 0⟩
  have hopen₂ : s₂.retrier.status = .open := hstatus₂.trans hopen₁
  have hissued₂ : s₂.packetIDGenerator.issued = 2 ^ 16 :=
    (congrArg IDGenerator.issued hgenerator₂).trans
      (show s.packetIDGenerator.issued + 1 = _ by omega)
  have hid₂ : s₂.packetIDGenerator.id = 0 := by
    rw [IDGenerator.id, hissued₂]
    rfl
  have hstored₂ : ∀ k, s₂.stored k =
      if k = 65535 then some (probing.setID 65535, 2 ^ 16 - 1, false) else none := by
    intro k
    rw [stored_ack, stored_send h.open, hid, hissued, h.stored]
    dsimp only
    by_cases hk : k = 0
    · rw [if_pos hk, hk]
      rfl
    · rw [if_neg hk, if_neg hk]
      rfl
  have hrecent₂ : s₂.Recent (0, .send probing false) := by
    rintro ⟨k, retry⟩ hmem
    have hk := hstored₂ k
    rw [Sender.stored, ExtTreeMap.mem_toList_iff_getElem?_eq_some.mp hmem] at hk
    split at hk
    · simp only [Option.map_some, Option.some.injEq, Prod.mk.injEq] at hk
      rw [hissued₂, hk.2.1]
      omega
    · cases hk
  refine ⟨⟨hrecent, trivial, hrecent₂, trivial⟩, (htracked₁.acknowledge 0 _).send hrecent₂,
    (status_send 0 _ _).trans hopen₂, fun k => ?_⟩
  show (s₂.track (0, .send probing false)).stored k = _
  rw [stored_send hopen₂, hid₂, hissued₂, hstored₂]
  by_cases hk : k = 0
  · rw [if_pos hk, if_pos hk, hk]
    rfl
  · rw [if_neg hk, if_neg hk]

/-- **The younger packet is retried.**  The packets 65535 and 65536 wait, the second one under the
identifier 0. -/
theorem retries_newer :
    Along track Recent {} straddling ∧
      (run track {} straddling).retrier.outstanding 65535 =
        some (probing.setID 65535, 2 ^ 16 - 1) ∧
      (run track {} straddling).retrier.getNextRetry.map (fun next => (next.1, next.2.serial)) =
        some (0, 2 ^ 16) ∧
      ¬ (run track {} straddling).retrier.RetriesOldest := by
  obtain ⟨halong, htracked, hopen, hstored⟩ :=
    (lagging_run (show 2 ^ 16 - 2 < 2 ^ 16 by norm_num)).straddle (by norm_num)
  rw [straddling, along_append, run_append]
  generalize run track (run track {} (lagging (2 ^ 16 - 2)))
    [(0, .send probing false), (0, .ack ⟨0, 0⟩), (0, .send probing false)] = s at *
  have hagrees := htracked.priority hopen
  -- The two entries, neither of which has priority.
  have hentry : ∀ {k paths n}, s.stored k = some (paths, n, false) →
      ∃ retry, (k, retry) ∈ s.retrier.candidates ∧ retry.serial = n := by
    intro k paths n hk
    obtain ⟨retry, hw, hretry⟩ := Option.map_eq_some_iff.mp hk
    refine ⟨retry, ?_, congrArg (·.2.1) hretry⟩
    have hany : ¬ (s.retrier.window.toList.any fun entry => entry.2.priority) = true := by
      intro hany
      obtain ⟨⟨k', retry'⟩, hmem, hpriority⟩ := List.any_eq_true.mp hany
      have hflag := priority_of_stored (s := s) k'
      rw [ExtTreeMap.mem_toList_iff_getElem?_eq_some.mp hmem, Option.map_some, hpriority,
        hstored] at hflag
      split at hflag
      · cases hflag
      · split at hflag <;> cases hflag
    rw [Retrier.candidates, if_neg hany]
    exact ExtTreeMap.mem_toList_iff_getElem?_eq_some.mpr hw
  obtain ⟨first, hfirst, hfirstSerial⟩ := hentry (hstored 0)
  obtain ⟨last, hlast, hlastSerial⟩ := hentry (hstored 65535)
  have hnext : s.retrier.getNextRetry = some (0, first) :=
    (Retrier.getNextRetry_eq hagrees).trans
      (Ordered.head?_eq_some_of_least s.retrier.ordered_candidates hfirst
        fun entry _ => BitVec.not_lt_zero)
  refine ⟨⟨along_lagging (by norm_num), halong⟩, ?_, ?_, ?_⟩
  · rw [outstanding_of_stored, hstored]
    rfl
  · rw [hnext, Option.map_some, hfirstSerial]
  · rintro ⟨next, hnext', -, holdest⟩
    rw [hnext] at hnext'
    cases hnext'
    have hle := holdest _ hlast
    dsimp only at hle
    omega

end Sender
end MrUDP
