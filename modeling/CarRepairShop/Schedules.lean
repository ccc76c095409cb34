import CarRepairShop.Lib.Schedules
import CarRepairShop.MessageCommutation

/-! # Only the queue of an order counts

A FIFO queue keeps the messages of one order in order, and promises nothing
about those of different orders. Nothing needs to be promised: two schedules
that agree on every order, redeliveries included, leave the tables the same and
give every message the same answer (`schedules_agree`).

A step is the handling of one message, at any time; states that differ in times
and drawn ids are alike. Messages about different orders commute
(`MessageCommutation`), and a message does the same deed in states that are
alike, so the handling of messages is `Confluent`.
-/

namespace CarRepairShop

open Lib Txn Prog

/-- The message is handled at some time, with this answer. -/
def Handled (w : World) (a : Incoming) (answer : Except Failure Outcome) (w' : World) : Prop :=
  ∃ now, w.answer now a.op = answer ∧ w.perform now a.op = w'

/-- A state after operations run one at a time. -/
def World.Reached (w : World) : Prop := ∃ ops, w = World.performAll {} ops

theorem World.Reached.perform {w : World} (h : w.Reached) (now : ℕ) (op : Op) :
    (w.perform now op).Reached := by
  rcases h with ⟨ops, rfl⟩
  exact ⟨ops ++ [(now, op)], (World.performAll_snoc {} ops now op).symm⟩

/-- The order a message is about; messages with a malformed id of an order share a lane. -/
def Incoming.lane (a : Incoming) : Option Uuid := a.orderId.column?

/-- Messages of different lanes with different ids. -/
structure Incoming.Unrelated (a b : Incoming) : Prop where
  lanes : a.lane ≠ b.lane
  messages : ∀ m, a.messageId.stored? = some m → b.messageId.stored? ≠ some m

theorem Incoming.Unrelated.apart {a b : Incoming} (h : a.Unrelated b) : a.Apart b where
  orders := by
    intro o ha hb
    exact h.lanes (ha.trans hb.symm)
  messages := h.messages

/-- A message does the same in states that are alike. -/
theorem Incoming.same_picture {a : Incoming} {w w' : World} (h : w.Reached) (h' : w'.Reached)
    (halike : w.db.picture = w'.db.picture) (t t' : ℕ) :
    w.answer t a.op = w'.answer t' a.op ∧
      (w.perform t a.op).db.picture = (w'.perform t' a.op).db.picture := by
  rcases h with ⟨ops, rfl⟩
  rcases h' with ⟨ops', rfl⟩
  have hprepared : ServiceOrderSaga.Prepared a.messageId a.orderId (World.performAll {} ops).db
      (World.performAll {} ops').db := by
    refine ⟨fun _ _ => World.performAll_backed ops, fun _ _ => World.performAll_backed ops', ?_⟩
    rw [halike]
    exact .refl _ _ _
  rcases World.perform_prepared hprepared t t' with ⟨hanswer, d, hd, hd'⟩
  exact ⟨hanswer, by rw [hd.picture, hd'.picture, halike]⟩

/-- The handling of messages does not depend on the order of the lanes. -/
theorem messages_confluent : Confluent Handled World.Reached
    (fun w w' => w.db.picture = w'.db.picture) Incoming.Unrelated where
  equivalence := ⟨fun _ => rfl, Eq.symm, Eq.trans⟩
  total := fun w a => ⟨w.answer 0 a.op, w.perform 0 a.op, 0, rfl, rfl⟩
  keeps := by
    rintro w a answer w' h ⟨now, -, rfl⟩
    exact h.perform now a.op
  same := by
    rintro w w' a answer answer' u u' h h' halike ⟨t, rfl, rfl⟩ ⟨t', rfl, rfl⟩
    exact Incoming.same_picture h h' halike t t'
  commute := by
    rintro w a b x y x' y' u₁ u u₂ u' ⟨ops, rfl⟩ hunrelated ⟨t₁, rfl, rfl⟩ ⟨t₂, rfl, rfl⟩
      ⟨t₃, rfl, rfl⟩ ⟨t₄, rfl, rfl⟩
    have hapart := hunrelated.apart
    rcases World.perform_together (hapart.ready ops t₃) t₁ t₄ with ⟨ha, d, hd, hd'⟩
    rcases World.perform_together (hapart.symm.ready ops t₁) t₃ t₂ with ⟨hb, e, he, he'⟩
    refine ⟨ha, hb.symm, ?_⟩
    rw [he'.picture, hd'.picture, hd.picture, he.picture]
    exact (Deed.act_comm hd.about he.about hapart.orders hapart.messages _).symm

/-- The messages are handled one after the other, each at its time; with each,
the answer it gets. -/
def World.handleAll (w : World) :
    List (ℕ × Incoming) → List (Incoming × Except Failure Outcome) × World
  | [] => ([], w)
  | (now, a) :: schedule =>
      let rest := (w.perform now a.op).handleAll schedule
      ((a, w.answer now a.op) :: rest.1, rest.2)

theorem World.handleAll_worksOff (w : World) (schedule : List (ℕ × Incoming)) :
    WorksOff Handled w (w.handleAll schedule).1 (w.handleAll schedule).2 := by
  induction schedule generalizing w with
  | nil => exact .done w
  | cons x schedule ih => exact .next ⟨x.1, rfl, rfl⟩ (ih _)

theorem World.handleAll_messages (w : World) (schedule : List (ℕ × Incoming)) :
    (w.handleAll schedule).1.map Prod.fst = schedule.map Prod.snd := by
  induction schedule generalizing w with
  | nil => rfl
  | cons x schedule ih =>
      simp only [World.handleAll, List.map_cons]
      rw [ih]

/-- After any sequence of operations run one at a time: two schedules of saga
messages, with any redeliveries and at any times, that have the same messages in
the same order for every order they are about, reach the same tables (but for
drawn ids and times) and give each order the same answers in the same order,
provided that a message id is only ever used about one order. -/
theorem schedules_agree (ops : List (ℕ × Op)) {schedule schedule' : List (ℕ × Incoming)}
    (hlanes : SameLanes Incoming.lane (schedule.map Prod.snd) (schedule'.map Prod.snd))
    (hids : ∀ a ∈ schedule.map Prod.snd, ∀ b ∈ schedule.map Prod.snd, ∀ m,
      a.messageId.stored? = some m → b.messageId.stored? = some m → a.lane = b.lane) :
    ((World.performAll {} ops).handleAll schedule).2.db.picture =
        ((World.performAll {} ops).handleAll schedule').2.db.picture ∧
      SameLanes (fun handled => handled.1.lane) ((World.performAll {} ops).handleAll schedule).1
        ((World.performAll {} ops).handleAll schedule').1 := by
  have hrun := World.handleAll_worksOff (World.performAll {} ops) schedule
  have hrun' := World.handleAll_worksOff (World.performAll {} ops) schedule'
  have hready : (World.performAll {} ops).Reached := ⟨ops, rfl⟩
  rw [← World.handleAll_messages (World.performAll {} ops) schedule,
    ← World.handleAll_messages (World.performAll {} ops) schedule'] at hlanes
  rw [← World.handleAll_messages (World.performAll {} ops) schedule] at hids
  have hdistinct : ∀ {a b : Incoming}, a.Unrelated b → a.lane ≠ b.lane := fun h => h.lanes
  have hall := messages_confluent.run hdistinct hready hready rfl hrun hrun' hlanes
    fun a ha b hb hne => ⟨hne, fun m hm hm' => hne (hids a ha b hb m hm hm')⟩
  exact ⟨hall.2, hall.1⟩

/-- A budget is rejected, the rejection redelivered, and another order that holds
units of the same item paid, in two orders. -/
theorem rejection_and_payment_agree :
    ((World.performAll {} itemInTwoOrders).handleAll
        [(11, rejection), (12, rejection), (13, payment)]).2.db.picture =
      ((World.performAll {} itemInTwoOrders).handleAll
        [(11, payment), (14, rejection), (15, rejection)]).2.db.picture ∧
    ((World.performAll {} itemInTwoOrders).handleAll
        [(11, rejection), (12, rejection), (13, payment)]).2.db.items.find? 2
      = some ⟨2, "Oil", 3000, 7, 0⟩ := by
  refine ⟨(schedules_agree itemInTwoOrders ?_ ?_).1, by decide +kernel⟩
  · intro k
    by_cases h4 : k = some 4
    · subst h4
      rfl
    · by_cases h6 : k = some 6
      · subst h6
        rfl
      · have hrejection : rejection.lane ≠ k := fun h => h4 h.symm
        have hpayment : payment.lane ≠ k := fun h => h6 h.symm
        simp [hrejection, hpayment]
  · intro a ha b hb m hm hm'
    simp only [List.map_cons, List.map_nil, List.mem_cons, List.not_mem_nil, or_false] at ha hb
    rcases ha with rfl | rfl | rfl <;> rcases hb with rfl | rfl | rfl <;>
      first | rfl | (cases hm; cases hm')

end CarRepairShop
