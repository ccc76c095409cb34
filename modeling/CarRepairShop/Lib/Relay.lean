import Mathlib.Data.List.Basic
import Mathlib.Data.List.Nodup
import Mathlib.Data.List.Perm.Basic

/-! # Relays over an outbox

An outbox is a table of rows that others append to. Relays forward it: each
fetches the oldest unpublished rows, sends them one by one, and marks a row as
published after it was sent. There may be any number of relays, without locks:
each works from the rows it fetched, however old they are by now. A send can
fail and a relay can stop at any point; either ends its cycle.

A row belongs to a lane. Rows of one lane are appended in the order of their
stamps; rows of different lanes may share a stamp, and the fetch may return
those in any order.

`Relays.Orderly` is the invariant: a published row was sent, no row was sent
before an earlier one of its lane, and no relay is about to. `cycles_oldest` is
about one relay left alone: its cycles send the oldest rows, each once.
-/

namespace Relay

/-- What a relay reads of a row, and how it marks one. -/
structure Outbox (Row Lane : Type) where
  id : Row → ℕ
  lane : Row → Lane
  stamp : Row → ℕ
  published : Row → Bool
  /-- The row marked as published at a time. -/
  publish : ℕ → Row → Row
  publish_id : ∀ t r, id (publish t r) = id r
  publish_lane : ∀ t r, lane (publish t r) = lane r
  publish_stamp : ∀ t r, stamp (publish t r) = stamp r
  published_publish : ∀ t r, published (publish t r) = true

/-- Where a relay is in its cycle. Between two cycles it has nothing to send. -/
inductive Cycle (Row : Type) where
  | sending (rest : List Row)
  | marking (row : Row) (rest : List Row)
deriving DecidableEq, Repr

/-- The rows of the cycle that are still to be sent. -/
def Cycle.rest {Row : Type} : Cycle Row → List Row
  | .sending rest => rest
  | .marking _ rest => rest

/-- The table, the relays, and the sends that succeeded, oldest first. -/
structure Relays (Row : Type) where
  table : List Row := []
  relays : List (Cycle Row) := []
  sends : List Row := []
deriving DecidableEq, Repr

/-- What can happen. -/
inductive Event (Row : Type) where
  /-- Others append rows. -/
  | commit (rows : List Row)
  /-- One more relay. -/
  | join
  /-- Relay `i` starts a cycle: of the unpublished rows, sorted, it takes `limit`. -/
  | fetch (i limit : ℕ) (sorted : List Row)
  /-- A send of relay `i` succeeds. -/
  | sent (i : ℕ)
  /-- Relay `i` marks the row it sent. -/
  | marked (i t : ℕ)
  /-- A send or a mark of relay `i` fails, or its process ends. -/
  | stop (i : ℕ)
deriving Repr

variable {Row Lane : Type}

namespace Outbox

variable (O : Outbox Row Lane)

/-- The ids are distinct, and each lane is in the order of its stamps. -/
def Ordered (table : List Row) : Prop :=
  (table.map O.id).Nodup ∧ table.Pairwise fun a b => O.lane a = O.lane b → O.stamp a < O.stamp b

instance [DecidableEq Lane] (table : List Row) : Decidable (O.Ordered table) := by
  unfold Ordered
  infer_instance

/-- The rows waiting to be published. -/
def pending (table : List Row) : List Row := table.filter fun r => !O.published r

/-- An answer to the query for the pending rows, oldest first, before the limit. -/
def Sorted (table sorted : List Row) : Prop :=
  sorted.Perm (O.pending table) ∧ sorted.Pairwise fun a b => O.stamp a ≤ O.stamp b

instance [DecidableEq Row] (table sorted : List Row) : Decidable (O.Sorted table sorted) := by
  unfold Sorted
  infer_instance

/-- Marks the row with this id. -/
def mark (table : List Row) (id t : ℕ) : List Row :=
  table.map fun r => if O.id r = id then O.publish t r else r

/-- The row was sent. -/
def Sent (sends : List Row) (r : Row) : Prop := O.id r ∈ sends.map O.id

/-- The row is stored, published or not. -/
def Stored (table : List Row) (r : Row) : Prop :=
  ∃ r' ∈ table, O.id r' = O.id r ∧ O.lane r' = O.lane r ∧ O.stamp r' = O.stamp r

/-- `e` is an earlier row of the lane of `r`. -/
def Before (e r : Row) : Prop := O.lane e = O.lane r ∧ O.stamp e < O.stamp r

end Outbox

/-- One event, where it is possible. -/
def Relays.step [DecidableEq Row] [DecidableEq Lane] (O : Outbox Row Lane) (s : Relays Row) :
    Event Row → Option (Relays Row)
  | .commit rows =>
      if (∀ r ∈ rows, O.published r = false) ∧ O.Ordered (s.table ++ rows) then
        some { s with table := s.table ++ rows }
      else none
  | .join => some { s with relays := s.relays ++ [.sending []] }
  | .fetch i limit sorted =>
      if s.relays[i]? = some (.sending []) ∧ 1 ≤ limit ∧ O.Sorted s.table sorted then
        some { s with relays := s.relays.set i (.sending (sorted.take limit)) }
      else none
  | .sent i =>
      match s.relays[i]? with
      | some (.sending (r :: rest)) =>
          some { s with relays := s.relays.set i (.marking r rest), sends := s.sends ++ [r] }
      | _ => none
  | .marked i t =>
      match s.relays[i]? with
      | some (.marking r rest) =>
          some { s with
            table := O.mark s.table (O.id r) t, relays := s.relays.set i (.sending rest) }
      | _ => none
  | .stop i => some { s with relays := s.relays.set i (.sending []) }

/-- A sequence of events. -/
def Relays.run [DecidableEq Row] [DecidableEq Lane] (O : Outbox Row Lane) :
    Relays Row → List (Event Row) → Option (Relays Row)
  | s, [] => some s
  | s, e :: events => (s.step O e).bind fun s' => s'.run O events

/-! ## The invariant -/

/-- A published row was sent, and no row is sent before an earlier row of its
lane. The rows a relay holds may be out of date; what counts is that whatever
is earlier than one of them was sent, or comes before it in the same cycle. -/
structure Relays.Orderly (O : Outbox Row Lane) (s : Relays Row) : Prop where
  ordered : O.Ordered s.table
  published : ∀ r ∈ s.table, O.published r = true → O.Sent s.sends r
  stored : ∀ r ∈ s.sends, O.Stored s.table r
  fetched : ∀ c ∈ s.relays, ∀ r ∈ c.rest, O.Stored s.table r
  marking : ∀ c ∈ s.relays, ∀ r rest, c = .marking r rest → O.Sent s.sends r
  ahead : ∀ c ∈ s.relays, ∀ done r later, c.rest = done ++ r :: later →
    ∀ e ∈ s.table, O.Before e r → O.Sent s.sends e ∨ O.Sent done e
  inOrder : ∀ before r after, s.sends = before ++ r :: after →
    ∀ e ∈ s.table, O.Before e r → O.Sent before e

variable {O : Outbox Row Lane} {s s' : Relays Row}

theorem Relays.Orderly.init : ({} : Relays Row).Orderly O where
  ordered := by simp [Outbox.Ordered]
  published := by simp
  stored := by simp
  fetched := by simp
  marking := by simp
  ahead := by simp
  inOrder := by simp

theorem Outbox.Sent.append {sends : List Row} {r : Row} (h : O.Sent sends r) (more : List Row) :
    O.Sent (sends ++ more) r := by
  unfold Sent at *
  rw [List.map_append]
  exact List.mem_append_left _ h

theorem Outbox.Stored.append {table : List Row} {r : Row} (h : O.Stored table r)
    (more : List Row) : O.Stored (table ++ more) r := by
  rcases h with ⟨r', hr', heq⟩
  exact ⟨r', List.mem_append_left _ hr', heq⟩

theorem Outbox.stored_of_mem {table : List Row} {r : Row} (h : r ∈ table) : O.Stored table r :=
  ⟨r, h, rfl, rfl, rfl⟩

/-- An appended row is not earlier than a stored one. -/
theorem Outbox.Ordered.not_before {table rows : List Row} (h : O.Ordered (table ++ rows))
    {e r : Row} (he : e ∈ rows) (hr : O.Stored table r) : ¬ O.Before e r := by
  rintro ⟨hlane, hlt⟩
  rcases hr with ⟨r', hr', -, hlane', hstamp'⟩
  have hpair := (List.pairwise_append.mp h.2).2.2 r' hr' e he (by rw [hlane', hlane])
  omega

/-- Marking changes neither ids nor lanes nor stamps. -/
theorem Outbox.mem_mark {table : List Row} {id t : ℕ} {r : Row} (h : r ∈ O.mark table id t) :
    ∃ r' ∈ table, O.id r = O.id r' ∧ O.lane r = O.lane r' ∧ O.stamp r = O.stamp r' ∧
      (O.published r = true → O.published r' = true ∨ O.id r' = id) := by
  rcases List.mem_map.mp h with ⟨r', hr', rfl⟩
  by_cases hid : O.id r' = id
  · rw [if_pos hid]
    exact ⟨r', hr', O.publish_id t r', O.publish_lane t r', O.publish_stamp t r',
      fun _ => Or.inr hid⟩
  · rw [if_neg hid]
    exact ⟨r', hr', rfl, rfl, rfl, Or.inl⟩

theorem Outbox.Stored.mark {table : List Row} {id t : ℕ} {r : Row} (h : O.Stored table r) :
    O.Stored (O.mark table id t) r := by
  rcases h with ⟨r', hr', hid, hlane, hstamp⟩
  refine ⟨_, List.mem_map_of_mem hr', ?_⟩
  split
  · rw [O.publish_id, O.publish_lane, O.publish_stamp]
    exact ⟨hid, hlane, hstamp⟩
  · exact ⟨hid, hlane, hstamp⟩

theorem Outbox.Ordered.mark {table : List Row} {id t : ℕ} (h : O.Ordered table) :
    O.Ordered (O.mark table id t) := by
  have hsame : ∀ {α : Type} (f : Row → α), (∀ r, f (O.publish t r) = f r) →
      ∀ r, f (if O.id r = id then O.publish t r else r) = f r := by
    intro α f hf r
    split
    · exact hf r
    · rfl
  refine ⟨?_, ?_⟩
  · have hids : (O.mark table id t).map O.id = table.map O.id := by
      unfold Outbox.mark
      rw [List.map_map]
      exact List.map_congr_left fun r _ => hsame O.id (O.publish_id t) r
    rw [hids]
    exact h.1
  · unfold Outbox.mark
    rw [List.pairwise_map]
    refine h.2.imp ?_
    intro a b hab
    rw [hsame O.lane (O.publish_lane t), hsame O.lane (O.publish_lane t),
      hsame O.stamp (O.publish_stamp t), hsame O.stamp (O.publish_stamp t)]
    exact hab

/-- Replacing a relay keeps what holds of all. -/
theorem forall_relays_set {P : Cycle Row → Prop} {relays : List (Cycle Row)} {i : ℕ}
    {c : Cycle Row} (h : ∀ c ∈ relays, P c) (hc : P c) : ∀ c' ∈ relays.set i c, P c' := by
  intro c' hc'
  rcases List.mem_or_eq_of_mem_set hc' with hold | rfl
  · exact h c' hold
  · exact hc

theorem Relays.Orderly.commit (h : s.Orderly O) {rows : List Row}
    (hnew : ∀ r ∈ rows, O.published r = false) (hord : O.Ordered (s.table ++ rows)) :
    ({ s with table := s.table ++ rows } : Relays Row).Orderly O where
  ordered := hord
  published := by
    intro r hr hpub
    rcases List.mem_append.mp hr with hold | hin
    · exact h.published r hold hpub
    · rw [hnew r hin] at hpub
      cases hpub
  stored r hr := (h.stored r hr).append rows
  fetched c hc r hr := (h.fetched c hc r hr).append rows
  marking := h.marking
  ahead := by
    intro c hc done r later hrest e he hbefore
    rcases List.mem_append.mp he with hold | hin
    · exact h.ahead c hc done r later hrest e hold hbefore
    · have hstored := h.fetched c hc r (by rw [hrest]; simp)
      exact absurd hbefore (hord.not_before hin hstored)
  inOrder := by
    intro before r after hsends e he hbefore
    rcases List.mem_append.mp he with hold | hin
    · exact h.inOrder before r after hsends e hold hbefore
    · have hstored := h.stored r (by rw [hsends]; simp)
      exact absurd hbefore (hord.not_before hin hstored)

/-- A relay that has nothing to send joins, or takes the place of another. -/
theorem Relays.Orderly.quiet (h : s.Orderly O) {relays : List (Cycle Row)}
    (hrelays : ∀ c ∈ relays, c ∈ s.relays ∨ c = .sending []) :
    ({ s with relays } : Relays Row).Orderly O where
  ordered := h.ordered
  published := h.published
  stored := h.stored
  fetched := by
    intro c hc r hr
    rcases hrelays c hc with hold | rfl
    · exact h.fetched c hold r hr
    · cases hr
  marking := by
    intro c hc r rest heq
    rcases hrelays c hc with hold | hidle
    · exact h.marking c hold r rest heq
    · rw [heq] at hidle
      cases hidle
  ahead := by
    intro c hc done r later hrest
    rcases hrelays c hc with hold | rfl
    · exact h.ahead c hold done r later hrest
    · simp [Cycle.rest] at hrest
  inOrder := h.inOrder

/-- What is earlier than a fetched row is published, or was fetched before it. -/
theorem Outbox.Sorted.ahead {table sorted : List Row} (h : O.Sorted table sorted) {limit : ℕ}
    {done later : List Row} {r : Row} (htake : sorted.take limit = done ++ r :: later) {e : Row}
    (he : e ∈ table) (hbefore : O.Before e r) : O.published e = true ∨ O.Sent done e := by
  cases hpub : O.published e with
  | true => exact Or.inl rfl
  | false =>
      right
      have hin : e ∈ sorted := h.1.symm.subset (by simp [Outbox.pending, he, hpub])
      -- the whole answer: what came before the row, the row, and what came after
      have hall : sorted = done ++ r :: (later ++ sorted.drop limit) := by
        rw [← List.cons_append, ← List.append_assoc, ← htake, List.take_append_drop]
      rw [hall] at hin
      have hafter : e ∉ later ++ sorted.drop limit := by
        intro hmem
        have hsorted := h.2
        rw [hall] at hsorted
        have hle := List.rel_of_pairwise_cons (List.pairwise_append.mp hsorted).2.1 hmem
        have hlt := hbefore.2
        omega
      rcases List.mem_append.mp hin with hdone | hrest
      · exact List.mem_map_of_mem hdone
      · rcases List.mem_cons.mp hrest with rfl | hmem
        · exact absurd hbefore.2 (Nat.lt_irrefl _)
        · exact absurd hmem hafter

theorem Relays.Orderly.fetch (h : s.Orderly O) {i limit : ℕ} {sorted : List Row}
    (hsorted : O.Sorted s.table sorted) :
    ({ s with relays := s.relays.set i (.sending (sorted.take limit)) } : Relays Row).Orderly O where
  ordered := h.ordered
  published := h.published
  stored := h.stored
  fetched := by
    apply forall_relays_set h.fetched
    intro r hr
    have hin := hsorted.1.subset (List.mem_of_mem_take hr)
    exact Outbox.stored_of_mem (List.mem_filter.mp hin).1
  marking := by
    apply forall_relays_set h.marking
    intro r rest heq
    cases heq
  ahead := by
    apply forall_relays_set h.ahead
    intro done r later htake e he hbefore
    rcases hsorted.ahead htake he hbefore with hpub | hdone
    · exact Or.inl (h.published e he hpub)
    · exact Or.inr hdone
  inOrder := h.inOrder

theorem Relays.Orderly.sent (h : s.Orderly O) {i : ℕ} {r : Row} {rest : List Row}
    (hi : s.relays[i]? = some (.sending (r :: rest))) :
    ({ s with relays := s.relays.set i (.marking r rest), sends := s.sends ++ [r] } :
      Relays Row).Orderly O := by
  have hmem : Cycle.sending (r :: rest) ∈ s.relays := List.mem_of_getElem? hi
  have hsent : O.Sent (s.sends ++ [r]) r := by simp [Outbox.Sent]
  constructor
  · exact h.ordered
  · intro r' hr' hpub
    exact (h.published r' hr' hpub).append [r]
  · intro r' hr'
    rcases List.mem_append.mp hr' with hold | hlast
    · exact h.stored r' hold
    · rw [List.mem_singleton.mp hlast]
      exact h.fetched _ hmem r List.mem_cons_self
  · apply forall_relays_set h.fetched
    intro r' hr'
    exact h.fetched _ hmem r' (List.mem_cons_of_mem r hr')
  · apply forall_relays_set (fun c hc r' rest' heq => (h.marking c hc r' rest' heq).append [r])
    intro r' rest' heq
    cases heq
    exact hsent
  · refine forall_relays_set ?_ ?_
    · intro c hc done r' later hrest e he hbefore
      rcases h.ahead c hc done r' later hrest e he hbefore with hs | hdone
      · exact Or.inl (hs.append [r])
      · exact Or.inr hdone
    · -- what came after the row in its own cycle: the row itself is sent by now
      intro done r' later hrest e he hbefore
      have hrest' : (Cycle.sending (r :: rest)).rest = (r :: done) ++ r' :: later := by
        rw [List.cons_append]
        exact congrArg (r :: ·) hrest
      rcases h.ahead _ hmem (r :: done) r' later hrest' e he hbefore with hs | hdone
      · exact Or.inl (hs.append [r])
      · rcases List.mem_cons.mp hdone with hid | hdone
        · left
          rw [Outbox.Sent, hid]
          exact hsent
        · exact Or.inr hdone
  · intro before r' after hsends e he hbefore
    rcases List.eq_nil_or_concat after with rfl | ⟨after, last, rfl⟩
    · -- the row just sent: nothing was before it in its cycle
      rcases List.append_inj' hsends rfl with ⟨rfl, hlast⟩
      cases hlast
      rcases h.ahead _ hmem [] r rest rfl e he hbefore with hs | hnone
      · exact hs
      · cases hnone
    · have hsplit : s.sends = before ++ r' :: after := by
        have hinit : s.sends ++ [r] = (before ++ r' :: after) ++ [last] := by
          simpa using hsends
        exact (List.append_inj' hinit rfl).1
      exact h.inOrder before r' after hsplit e he hbefore

theorem Relays.Orderly.marked (h : s.Orderly O) {i t : ℕ} {r : Row} {rest : List Row}
    (hi : s.relays[i]? = some (.marking r rest)) :
    ({ s with table := O.mark s.table (O.id r) t, relays := s.relays.set i (.sending rest) } :
      Relays Row).Orderly O := by
  have hmem : Cycle.marking r rest ∈ s.relays := List.mem_of_getElem? hi
  have hback : ∀ {e r' : Row}, e ∈ O.mark s.table (O.id r) t → O.Before e r' →
      ∃ e' ∈ s.table, O.id e = O.id e' ∧ O.Before e' r' := by
    rintro e r' he ⟨hlane, hlt⟩
    rcases Outbox.mem_mark he with ⟨e', he', hid, hlane', hstamp', -⟩
    exact ⟨e', he', hid, by rw [← hlane', hlane], by rw [← hstamp']; exact hlt⟩
  constructor
  · exact h.ordered.mark
  · intro r' hr' hpub
    rcases Outbox.mem_mark hr' with ⟨r₀, hr₀, hid, -, -, hwas⟩
    unfold Outbox.Sent
    rw [hid]
    rcases hwas hpub with hold | hmarked
    · exact h.published r₀ hr₀ hold
    · rw [hmarked]
      exact h.marking _ hmem r rest rfl
  · intro r' hr'
    exact (h.stored r' hr').mark
  · refine forall_relays_set ?_ ?_
    · intro c hc r' hr'
      exact (h.fetched c hc r' hr').mark
    · intro r' hr'
      exact (h.fetched _ hmem r' hr').mark
  · apply forall_relays_set h.marking
    intro r' rest' heq
    cases heq
  · refine forall_relays_set ?_ ?_
    · intro c hc done r' later hrest e he hbefore
      rcases hback he hbefore with ⟨e', he', hid, hbefore'⟩
      unfold Outbox.Sent
      rw [hid]
      exact h.ahead c hc done r' later hrest e' he' hbefore'
    · intro done r' later hrest e he hbefore
      rcases hback he hbefore with ⟨e', he', hid, hbefore'⟩
      unfold Outbox.Sent
      rw [hid]
      exact h.ahead _ hmem done r' later hrest e' he' hbefore'
  · intro before r' after hsends e he hbefore
    rcases hback he hbefore with ⟨e', he', hid, hbefore'⟩
    unfold Outbox.Sent
    rw [hid]
    exact h.inOrder before r' after hsends e' he' hbefore'

/-- Every event keeps the invariant. -/
theorem Relays.Orderly.step [DecidableEq Row] [DecidableEq Lane] (h : s.Orderly O) {e : Event Row}
    (hstep : s.step O e = some s') : s'.Orderly O := by
  cases e with
  | commit rows =>
      simp only [Relays.step] at hstep
      split at hstep
      · next hnew =>
        cases hstep
        exact h.commit hnew.1 hnew.2
      · cases hstep
  | join =>
      cases hstep
      refine h.quiet ?_
      intro c hc
      rcases List.mem_append.mp hc with hold | hnew
      · exact Or.inl hold
      · exact Or.inr (List.mem_singleton.mp hnew)
  | fetch i limit sorted =>
      simp only [Relays.step] at hstep
      split at hstep
      · next hfetch =>
        cases hstep
        exact h.fetch hfetch.2.2
      · cases hstep
  | sent i =>
      simp only [Relays.step] at hstep
      split at hstep
      · next r rest hi =>
        cases hstep
        exact h.sent hi
      · cases hstep
  | marked i t =>
      simp only [Relays.step] at hstep
      split at hstep
      · next r rest hi =>
        cases hstep
        exact h.marked hi
      · cases hstep
  | stop i =>
      cases hstep
      refine h.quiet ?_
      intro c hc
      exact List.mem_or_eq_of_mem_set hc

/-- When the row was sent first, as a position in the sends. -/
def Outbox.firstSend (O : Outbox Row Lane) (sends : List Row) (r : Row) : Option ℕ :=
  sends.findIdx? fun x => O.id x = O.id r

/-- A row is first sent after each earlier row of its lane was. -/
theorem Relays.Orderly.firstSend (h : s.Orderly O) {e r : Row} (he : e ∈ s.table)
    (hr : r ∈ s.table) (hbefore : O.Before e r) {j : ℕ} (hj : O.firstSend s.sends r = some j) :
    ∃ i < j, O.firstSend s.sends e = some i := by
  rcases List.findIdx?_eq_some_iff_getElem.mp hj with ⟨hlt, hid, -⟩
  have hid : O.id s.sends[j] = O.id r := by simpa using hid
  -- the row that was sent is the stored one: their ids are the same
  have hbefore' : O.Before e s.sends[j] := by
    rcases h.stored _ (List.getElem_mem hlt) with ⟨r', hr', hid', hlane, hstamp⟩
    have hsame : r' = r := List.inj_on_of_nodup_map h.ordered.1 hr' hr (hid'.trans hid)
    rw [hsame] at hlane hstamp
    exact ⟨hbefore.1.trans hlane, hstamp ▸ hbefore.2⟩
  have hsplit : s.sends = s.sends.take j ++ s.sends[j] :: s.sends.drop (j + 1) := by
    rw [← List.drop_eq_getElem_cons hlt, List.take_append_drop]
  rcases List.mem_map.mp (h.inOrder _ _ _ hsplit e he hbefore') with ⟨x, hx, hxe⟩
  have hfound : ((s.sends.take j).findIdx? fun x => O.id x = O.id e).isSome = true := by
    rw [List.findIdx?_isSome, List.any_eq_true]
    exact ⟨x, hx, by simpa using hxe⟩
  rcases Option.isSome_iff_exists.mp hfound with ⟨i, hi⟩
  have hij : i < j := by
    rcases List.findIdx?_eq_some_iff_getElem.mp hi with ⟨hilt, -⟩
    rw [List.length_take] at hilt
    omega
  refine ⟨i, hij, ?_⟩
  rw [Outbox.firstSend, hsplit, List.findIdx?_append, hi]
  rfl

/-! ## One relay alone -/

/-- A cycle of relay `i` in which nothing fails, each mark at its own time. -/
def Cycle.undisturbed (i limit : ℕ) (times : Row → ℕ) (sorted : List Row) : List (Event Row) :=
  .fetch i limit sorted :: (sorted.take limit).flatMap fun r => [.sent i, .marked i (times r)]

/-- Marking a row takes it out of the pending ones. -/
theorem Outbox.pending_mark (O : Outbox Row Lane) (table : List Row) (id t : ℕ) :
    O.pending (O.mark table id t) = (O.pending table).filter fun r => O.id r ≠ id := by
  induction table with
  | nil => rfl
  | cons r table ih =>
      unfold Outbox.pending Outbox.mark at *
      by_cases hid : O.id r = id
      · cases hpub : O.published r <;> simp [hid, hpub, O.published_publish, ih]
      · cases hpub : O.published r <;> simp [hid, hpub, ih]

theorem run_append [DecidableEq Row] [DecidableEq Lane] (O : Outbox Row Lane) (s : Relays Row)
    (es es' : List (Event Row)) : s.run O (es ++ es') = (s.run O es).bind fun s₁ => s₁.run O es' := by
  induction es generalizing s with
  | nil => rfl
  | cons e es ih =>
      rw [List.cons_append, Relays.run, Relays.run]
      cases s.step O e with
      | none => rfl
      | some s₁ => exact ih s₁

/-- What a relay leaves behind that sent and marked the rows `rest`. -/
structure Drained (O : Outbox Row Lane) (i : ℕ) (rest : List Row) (s s' : Relays Row) : Prop where
  ordered : O.Ordered s'.table
  pending : O.pending s'.table = (O.pending s.table).filter fun r => O.id r ∉ rest.map O.id
  idle : s'.relays[i]? = some (.sending [])
  sends : s'.sends = s.sends ++ rest

/-- A relay that nothing disturbs sends and marks all the rows of its cycle. -/
theorem drain [DecidableEq Row] [DecidableEq Lane] {i : ℕ} (times : Row → ℕ) (rest : List Row)
    {s : Relays Row} (hord : O.Ordered s.table) (hi : s.relays[i]? = some (.sending rest)) :
    ∃ s', s.run O (rest.flatMap fun r => [.sent i, .marked i (times r)]) = some s' ∧
      Drained O i rest s s' := by
  induction rest generalizing s with
  | nil => exact ⟨s, rfl, hord, by simp, hi, by simp⟩
  | cons r rest ih =>
      have hlt := (List.getElem?_eq_some_iff.mp hi).1
      have hsent : s.step O (.sent i) = some { s with
          relays := s.relays.set i (.marking r rest), sends := s.sends ++ [r] } := by
        simp only [Relays.step, hi]
      have hmarked : ({ s with relays := s.relays.set i (.marking r rest), sends := s.sends ++ [r] } :
          Relays Row).step O (.marked i (times r)) = some
            { table := O.mark s.table (O.id r) (times r)
              relays := (s.relays.set i (.marking r rest)).set i (.sending rest)
              sends := s.sends ++ [r] } := by
        simp only [Relays.step, List.getElem?_set_self hlt]
      have hidle : ((s.relays.set i (.marking r rest)).set i (.sending rest))[i]?
          = some (.sending rest) := by
        rw [List.set_set, List.getElem?_set_self hlt]
      rcases ih (s := { table := O.mark s.table (O.id r) (times r)
                        relays := (s.relays.set i (.marking r rest)).set i (.sending rest)
                        sends := s.sends ++ [r] }) hord.mark hidle with ⟨s', hrun, hdrained⟩
      refine ⟨s', ?_, hdrained.ordered, ?_, hdrained.idle, ?_⟩
      · rw [List.flatMap_cons, List.cons_append, List.cons_append, List.nil_append, Relays.run,
          hsent, Option.bind_some, Relays.run, hmarked, Option.bind_some, hrun]
      · rw [hdrained.pending, Outbox.pending_mark, List.filter_filter]
        apply List.filter_congr
        intro x _
        by_cases hx : O.id x = O.id r <;> simp [hx]
      · rw [hdrained.sends, List.append_assoc, List.singleton_append]

/-- What one undisturbed cycle does. -/
theorem run_undisturbed [DecidableEq Row] [DecidableEq Lane] {i limit : ℕ} (times : Row → ℕ)
    {sorted : List Row} {s : Relays Row} (hord : O.Ordered s.table)
    (hi : s.relays[i]? = some (.sending [])) (hlimit : 1 ≤ limit)
    (hsorted : O.Sorted s.table sorted) :
    ∃ s', s.run O (Cycle.undisturbed i limit times sorted) = some s' ∧
      Drained O i (sorted.take limit) s s' := by
  have hlt := (List.getElem?_eq_some_iff.mp hi).1
  have hfetch : s.step O (.fetch i limit sorted) = some { s with
      relays := s.relays.set i (.sending (sorted.take limit)) } := by
    rw [Relays.step, if_pos ⟨hi, hlimit, hsorted⟩]
  rcases drain (s := { s with relays := s.relays.set i (.sending (sorted.take limit)) }) times
    (sorted.take limit) hord (List.getElem?_set_self hlt) with ⟨s', hrun, hdrained⟩
  refine ⟨s', ?_, hdrained.ordered, hdrained.pending, hdrained.idle, hdrained.sends⟩
  rw [Cycle.undisturbed, Relays.run, hfetch, Option.bind_some, hrun]

/-- Of a sorted answer, the cycle leaves what is beyond the limit. -/
theorem Drained.left {i limit : ℕ} {sorted : List Row} {s s' : Relays Row}
    (h : Drained O i (sorted.take limit) s s') (hord : O.Ordered s.table)
    (hsorted : O.Sorted s.table sorted) : (O.pending s'.table).Perm (sorted.drop limit) := by
  have hids : (sorted.map O.id).Nodup := by
    have hnodup : ((O.pending s.table).map O.id).Nodup :=
      hord.1.sublist (List.filter_sublist.map O.id)
    exact (hsorted.1.map O.id).nodup_iff.mpr hnodup
  rw [h.pending]
  refine (hsorted.1.symm.filter _).trans ?_
  -- the rows taken and the rows left have no id in common
  have hsplit : sorted = sorted.take limit ++ sorted.drop limit :=
    (List.take_append_drop limit sorted).symm
  have hapart : ∀ r ∈ sorted.drop limit, O.id r ∉ (sorted.take limit).map O.id := by
    intro r hr hin
    rw [hsplit, List.map_append] at hids
    exact List.disjoint_of_nodup_append hids hin (List.mem_map_of_mem hr)
  have hdrop : sorted.filter (fun r => O.id r ∉ (sorted.take limit).map O.id)
      = sorted.drop limit := by
    conv_lhs => rw [hsplit]
    rw [List.filter_append, List.filter_eq_nil_iff.mpr, List.nil_append, List.filter_eq_self.mpr]
    · intro r hr
      simpa using hapart r (by simpa using hr)
    · intro r hr
      have hin : O.id r ∈ (sorted.take limit).map O.id :=
        List.mem_map_of_mem (by simpa using hr)
      simpa using hin
  rw [hdrop]

/-- What consecutive undisturbed cycles send: the oldest rows, each once. -/
structure Oldest (O : Outbox Row Lane) (n : ℕ) (s s' : Relays Row) (sent : List Row) : Prop where
  sends : s'.sends = s.sends ++ sent
  length : sent.length = min n (O.pending s.table).length
  once : (sent.map O.id).Nodup
  partition : (sent ++ O.pending s'.table).Perm (O.pending s.table)
  oldest : ∀ r ∈ sent, ∀ r' ∈ O.pending s'.table, O.stamp r ≤ O.stamp r'

/-- One cycle sends the oldest rows. -/
theorem Drained.oldest {i limit : ℕ} {sorted : List Row} {s s' : Relays Row}
    (h : Drained O i (sorted.take limit) s s') (hord : O.Ordered s.table)
    (hsorted : O.Sorted s.table sorted) : Oldest O limit s s' (sorted.take limit) := by
  have hleft := h.left hord hsorted
  have hpart : (sorted.take limit ++ O.pending s'.table).Perm (O.pending s.table) := by
    refine (hleft.append_left _).trans ?_
    rw [List.take_append_drop]
    exact hsorted.1
  refine ⟨h.sends, ?_, ?_, hpart, ?_⟩
  · rw [List.length_take, hsorted.1.length_eq]
  · have hnodup : ((O.pending s.table).map O.id).Nodup :=
      hord.1.sublist (List.filter_sublist.map O.id)
    have hall := (hpart.map O.id).nodup_iff.mpr hnodup
    rw [List.map_append] at hall
    exact hall.of_append_left
  · intro r hr r' hr'
    have hpair := hsorted.2
    rw [← List.take_append_drop limit sorted] at hpair
    exact (List.pairwise_append.mp hpair).2.2 r hr r' (hleft.subset hr')

/-- The cycles that follow one another send the oldest rows together. -/
theorem Oldest.trans {n m : ℕ} {s₀ s₁ s₂ : Relays Row} {sent sent' : List Row}
    (hord : O.Ordered s₀.table) (h : Oldest O n s₀ s₁ sent) (h' : Oldest O m s₁ s₂ sent') :
    Oldest O (n + m) s₀ s₂ (sent ++ sent') := by
  have hpart : ((sent ++ sent') ++ O.pending s₂.table).Perm (O.pending s₀.table) := by
    rw [List.append_assoc]
    exact (h'.partition.append_left sent).trans h.partition
  refine ⟨?_, ?_, ?_, hpart, ?_⟩
  · rw [h'.sends, h.sends, List.append_assoc]
  · have hlength := h.partition.length_eq
    have hfirst := h.length
    have hsecond := h'.length
    rw [List.length_append] at hlength ⊢
    omega
  · have hnodup : ((O.pending s₀.table).map O.id).Nodup :=
      hord.1.sublist (List.filter_sublist.map O.id)
    have hall := (hpart.map O.id).nodup_iff.mpr hnodup
    rw [List.map_append] at hall
    exact hall.of_append_left
  · intro r hr r' hr'
    rcases List.mem_append.mp hr with hfirst | hsecond
    · -- what is left at the end was left after the first cycle too
      exact h.oldest r hfirst r' (h'.partition.subset (List.mem_append_right _ hr'))
    · exact h'.oldest r hsecond r' hr'

/-- Cycles that nothing disturbs send the oldest rows, each once. -/
theorem cycles_oldest [DecidableEq Row] [DecidableEq Lane] {i limit : ℕ} (times : Row → ℕ)
    (hlimit : 1 ≤ limit) (answers : List (List Row)) {s s' : Relays Row}
    (hord : O.Ordered s.table) (hi : s.relays[i]? = some (.sending []))
    (hrun : s.run O (answers.flatMap (Cycle.undisturbed i limit times)) = some s') :
    ∃ sent, Oldest O (answers.length * limit) s s' sent := by
  induction answers generalizing s with
  | nil =>
      cases hrun
      exact ⟨[], by simp, by simp, by simp, by simp, by simp⟩
  | cons sorted answers ih =>
      rw [List.flatMap_cons, run_append] at hrun
      -- the answer was one to the query, for the fetch went through
      have hsorted : O.Sorted s.table sorted := by
        by_contra hno
        have hfetch : s.step O (.fetch i limit sorted) = none := by
          rw [Relays.step, if_neg]
          rintro ⟨-, -, h⟩
          exact hno h
        rw [Cycle.undisturbed, Relays.run, hfetch] at hrun
        cases hrun
      rcases run_undisturbed times hord hi hlimit hsorted with ⟨s₁, hrun₁, hdrained⟩
      rw [hrun₁, Option.bind_some] at hrun
      rcases ih hdrained.ordered hdrained.idle hrun with ⟨sent, hrest⟩
      refine ⟨sorted.take limit ++ sent, ?_⟩
      have htotal := Oldest.trans hord (hdrained.oldest hord hsorted) hrest
      have hcount : (sorted :: answers).length * limit = limit + answers.length * limit := by
        rw [List.length_cons, Nat.succ_mul, Nat.add_comm]
      rw [hcount]
      exact htotal

/-- There is always an answer to the query. -/
theorem Outbox.exists_sorted (O : Outbox Row Lane) (table : List Row) :
    ∃ sorted, O.Sorted table sorted := by
  let le : Row → Row → Bool := fun a b => O.stamp a ≤ O.stamp b
  have htrans : ∀ a b c, le a b → le b c → le a c := by
    intro a b c hab hbc
    simp only [le, decide_eq_true_eq] at *
    omega
  have htotal : ∀ a b, le a b || le b a := by
    intro a b
    simp only [le, Bool.or_eq_true, decide_eq_true_eq]
    omega
  refine ⟨(O.pending table).mergeSort le, List.mergeSort_perm _ _, ?_⟩
  refine (List.pairwise_mergeSort htrans htotal (O.pending table)).imp ?_
  intro a b hab
  simpa [le] using hab

/-- A relay that has nothing to send can go through any number of cycles. -/
theorem cycles_run [DecidableEq Row] [DecidableEq Lane] {i limit : ℕ} (times : Row → ℕ)
    (hlimit : 1 ≤ limit) (k : ℕ) {s : Relays Row} (hord : O.Ordered s.table)
    (hi : s.relays[i]? = some (.sending [])) :
    ∃ (answers : List (List Row)) (s' : Relays Row), answers.length = k ∧
      s.run O (answers.flatMap (Cycle.undisturbed i limit times)) = some s' := by
  induction k generalizing s with
  | zero => exact ⟨[], s, rfl, rfl⟩
  | succ k ih =>
      rcases O.exists_sorted s.table with ⟨sorted, hsorted⟩
      rcases run_undisturbed times hord hi hlimit hsorted with ⟨s₁, hrun₁, hdrained⟩
      rcases ih hdrained.ordered hdrained.idle with ⟨answers, s', hlength, hrun⟩
      refine ⟨sorted :: answers, s', by rw [List.length_cons, hlength], ?_⟩
      rw [List.flatMap_cons, run_append, hrun₁, Option.bind_some, hrun]

end Relay
