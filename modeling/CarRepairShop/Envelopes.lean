import CarRepairShop.Poller

/-! # Commands on the wire

What becomes of a stored command on its way to a participant and back:
`PrismaOutboxStore.ts` reads the row, `SqsMessageSender.ts` serialises it, and
`parseEnvelope.ts` and `FailedCommandHandler.ts` read it from a dead-letter
queue.

The text of a body is not modelled: a body is what `JSON.parse` makes of it. So
`JSON.stringify` is the value that comes back.
-/

namespace CarRepairShop

/-! ## Serialised values -/

mutual
/-- What `JSON.parse` makes of a value that `JSON.stringify` printed: an
infinity is printed as `null`. -/
def Json.printed : Json → Json
  | .null => .null
  | .bool b => .bool b
  | .num (.finite value) => .num (.finite value)
  | .num .infinite => .null
  | .str s => .str s
  | .arr elements => .arr (Json.printedElements elements)
  | .obj fields => .obj (Json.printedFields fields)

def Json.printedElements : List Json → List Json
  | [] => []
  | v :: rest => v.printed :: Json.printedElements rest

def Json.printedFields : List (String × Json) → List (String × Json)
  | [] => []
  | (name, v) :: rest => (name, v.printed) :: Json.printedFields rest
end

mutual
/-- The value holds no number beyond the range of doubles. -/
def Json.inRange : Json → Bool
  | .null | .bool _ | .num (.finite _) | .str _ => true
  | .num .infinite => false
  | .arr elements => Json.inRangeElements elements
  | .obj fields => Json.inRangeFields fields

def Json.inRangeElements : List Json → Bool
  | [] => true
  | v :: rest => v.inRange && Json.inRangeElements rest

def Json.inRangeFields : List (String × Json) → Bool
  | [] => true
  | (_, v) :: rest => v.inRange && Json.inRangeFields rest
end

mutual
/-- A value comes back unchanged exactly when all its numbers are in range. -/
theorem Json.printed_eq_iff (v : Json) : v.printed = v ↔ v.inRange = true := by
  cases v with
  | null => simp [printed, inRange]
  | bool b => simp [printed, inRange]
  | num n => cases n <;> simp [printed, inRange]
  | str s => simp [printed, inRange]
  | arr elements => simp [printed, inRange, Json.printedElements_eq_iff elements]
  | obj fields => simp [printed, inRange, Json.printedFields_eq_iff fields]

theorem Json.printedElements_eq_iff (elements : List Json) :
    Json.printedElements elements = elements ↔ Json.inRangeElements elements = true := by
  cases elements with
  | nil => simp [printedElements, inRangeElements]
  | cons v rest =>
      simp [printedElements, inRangeElements, Json.printed_eq_iff v,
        Json.printedElements_eq_iff rest]

theorem Json.printedFields_eq_iff (fields : List (String × Json)) :
    Json.printedFields fields = fields ↔ Json.inRangeFields fields = true := by
  cases fields with
  | nil => simp [printedFields, inRangeFields]
  | cons field rest =>
      simp [printedFields, inRangeFields, Prod.ext_iff, Json.printed_eq_iff field.2,
        Json.printedFields_eq_iff rest]
end

/-- `JSON.stringify`. -/
def Json.stringify (v : Json) : MessageBody := some v.printed

/-! ## Envelopes -/

/-- The object that `JSON.stringify` is given for an envelope. -/
def MessageEnvelope.toJson (e : MessageEnvelope) : Json :=
  .obj ([("messageId", .str e.messageId), ("type", .str e.type),
    ("serviceOrderId", .str e.serviceOrderId), ("occurredAt", .str e.occurredAt)] ++
    (match e.traceparent with
      | none => []
      | some traceparent => [("traceparent", .str traceparent)]) ++
    [("payload", .obj e.payload)])

/-- What every envelope that is accepted has. -/
structure MessageEnvelope.WellFormed (e : MessageEnvelope) : Prop where
  messageId : e.messageId ≠ ""
  type : e.type ≠ ""
  serviceOrderId : e.serviceOrderId ≠ ""
  occurredAt : e.occurredAt ≠ ""
  traceparent : e.traceparent ≠ some ""

theorem textField_ne_empty {fields : List (String × Json)} {name text : String}
    (h : textField fields name = some text) : text ≠ "" := by
  unfold textField at h
  split at h
  · split at h
    · cases h
    · next hne =>
      cases h
      exact hne
  · cases h

theorem parseEnvelope_wellFormed {body : MessageBody} {e : MessageEnvelope}
    (h : parseEnvelope body = some e) : e.WellFormed := by
  unfold parseEnvelope at h
  split at h
  · next fields =>
    simp only [Option.bind_eq_bind, Option.bind_eq_some_iff] at h
    obtain ⟨messageId, hid, type, htype, orderId, horder, occurredAt, hocc, h⟩ := h
    have hid := textField_ne_empty hid
    have htype := textField_ne_empty htype
    have horder := textField_ne_empty horder
    have hocc := textField_ne_empty hocc
    split at h
    · cases h
      exact ⟨hid, htype, horder, hocc, by simp⟩
    · next payload traceparent _ _ =>
      cases h
      refine ⟨hid, htype, horder, hocc, ?_⟩
      by_cases hempty : traceparent = ""
      · simp [hempty]
      · simp [hempty]
    · cases h
  · cases h

/-- An envelope with all it has to have is accepted once serialised, and only
its payload may have lost something. -/
theorem MessageEnvelope.WellFormed.parse {e : MessageEnvelope} (h : e.WellFormed) :
    parseEnvelope e.toJson.stringify = some { e with payload := Json.printedFields e.payload } := by
  obtain ⟨messageId, type, serviceOrderId, occurredAt, traceparent, payload⟩ := e
  obtain ⟨hid, htype, horder, hocc, htrace⟩ := h
  dsimp only at hid htype horder hocc htrace
  cases traceparent with
  | none =>
      simp [Json.stringify, toJson, Json.printed, Json.printedFields, parseEnvelope, textField,
        List.lookup_cons, hid, htype, horder, hocc]
  | some traceparent =>
      have hne : traceparent ≠ "" := by simpa using htrace
      simp [Json.stringify, toJson, Json.printed, Json.printedFields, parseEnvelope, textField,
        List.lookup_cons, hid, htype, horder, hocc, hne]

/-- An envelope that was accepted comes back unchanged exactly when the numbers
of its payload are in range. -/
theorem parseEnvelope_stringify_iff {body : MessageBody} {e : MessageEnvelope}
    (h : parseEnvelope body = some e) :
    parseEnvelope e.toJson.stringify = some e ↔ Json.inRangeFields e.payload = true := by
  rw [(parseEnvelope_wellFormed h).parse, ← Json.printedFields_eq_iff]
  constructor
  · intro heq
    exact congrArg MessageEnvelope.payload (Option.some.inj heq)
  · intro heq
    rw [heq]

/-! ## Identifiers -/

/-- The hexadecimal digits of `n`, the last `width` of them. -/
def hexDigits (n width : ℕ) : List Char := (List.range width).reverse.map (hexChar n 0)

theorem hexDigits_succ (n width : ℕ) :
    hexDigits n (width + 1) = hexChar n 0 width :: hexDigits n width := by
  simp [hexDigits, List.range_succ]

@[simp] theorem length_hexDigits (n width : ℕ) : (hexDigits n width).length = width := by
  simp [hexDigits]

theorem hexDigit?_hexChar (n i : ℕ) : hexDigit? (hexChar n 0 i) = some (n / 16 ^ i % 16, false) := by
  have hall : ∀ d < 16, hexDigit? (Nat.digitChar d) = some (d, false) := by decide
  simpa [hexChar] using hall (n / 16 ^ i % 16) (Nat.mod_lt _ (by decide))

theorem dash_not_mem_hexDigits (n width : ℕ) : '-' ∉ hexDigits n width := by
  have hall : ∀ d < 16, Nat.digitChar d ≠ '-' := by decide
  intro hmem
  obtain ⟨i, -, hi⟩ := List.mem_map.mp hmem
  rw [hexChar, Nat.zero_testBit] at hi
  exact hall (n / 16 ^ i % 16) (Nat.mod_lt _ (by decide)) hi

/-- Digits written in lower case are read back as the number. -/
theorem readHex_hexDigits (n width value : ℕ) :
    readHex (hexDigits n width) value 0 = some (16 ^ width * value + n % 16 ^ width, 0) := by
  induction width generalizing value with
  | zero => simp [hexDigits, readHex, Nat.mod_one]
  | succ width ih =>
      rw [hexDigits_succ]
      simp only [readHex, hexDigit?_hexChar]
      rw [show 2 * 0 + (if false = true then 1 else 0) = 0 from rfl, ih, Nat.mod_pow_succ,
        Nat.pow_succ]
      simp only [Option.some.injEq, Prod.mk.injEq, and_true]
      ring

/-- The five groups of a UUID. -/
def uuidGroups (digits : List Char) : List (List Char) :=
  [digits.take 8, (digits.drop 8).take 4, (digits.drop 12).take 4, (digits.drop 16).take 4,
    digits.drop 20]

theorem mem_uuidGroups {digits group : List Char} (h : group ∈ uuidGroups digits) {c : Char}
    (hc : c ∈ group) : c ∈ digits := by
  simp only [uuidGroups, List.mem_cons, List.not_mem_nil, or_false] at h
  rcases h with rfl | rfl | rfl | rfl | rfl
  · exact List.mem_of_mem_take hc
  · exact List.mem_of_mem_drop (List.mem_of_mem_take hc)
  · exact List.mem_of_mem_drop (List.mem_of_mem_take hc)
  · exact List.mem_of_mem_drop (List.mem_of_mem_take hc)
  · exact List.mem_of_mem_drop hc

theorem join_uuidGroups (digits : List Char) :
    digits.take 8 ++ (digits.drop 8).take 4 ++ (digits.drop 12).take 4 ++ (digits.drop 16).take 4 ++
      digits.drop 20 = digits := by
  have hgroup : ∀ n m, (digits.drop n).take m ++ digits.drop (n + m) = digits.drop n := by
    intro n m
    rw [← List.drop_drop, List.take_append_drop]
  simp only [List.append_assoc]
  rw [hgroup 16 4, hgroup 12 4, hgroup 8 4, List.take_append_drop]

/-- `isUuid` accepts a UUID as PostgreSQL prints it, and the column takes the
same value from it. -/
theorem IdText.read_render {id : Uuid} (h : id < 2 ^ 128) :
    IdText.read (Uuid.text id).render = Uuid.text id := by
  have htext : (Uuid.text id).render.toList = ['-'].intercalate (uuidGroups (hexDigits id 32)) := by
    simp [Uuid.text, IdText.render, uuidGroups, hexDigits, List.intercalate]
  have hsplit : (Uuid.text id).render.toList.splitOn '-' = uuidGroups (hexDigits id 32) := by
    rw [htext]
    refine List.splitOn_intercalate '-' ?_ (by simp [uuidGroups])
    intro group hgroup hdash
    exact dash_not_mem_hexDigits id 32 (mem_uuidGroups hgroup hdash)
  have hread : readHex (hexDigits id 32) 0 0 = some (id, 0) := by
    have hmod : id % 16 ^ 32 = id := Nat.mod_eq_of_lt (by simpa using h)
    rw [readHex_hexDigits, hmod, Nat.mul_zero, Nat.zero_add]
  unfold IdText.read
  rw [hsplit]
  simp only [uuidGroups, join_uuidGroups, hread]
  simp [Uuid.text]

/-! ## From a row to a body and back -/

/-- `COMPENSATION_REASONS`. -/
def CompensationReason.name : CompensationReason → String
  | .budgetRejected => "BUDGET_REJECTED"
  | .paymentFailed => "PAYMENT_FAILED"
  | .stepFailed => "STEP_FAILED"

def BudgetLineKind.name : BudgetLineKind → String
  | .service => "SERVICE"
  | .item => "ITEM"

/-- A price as a number; the column holds cents. -/
def Money.toJson (m : Money) : Json := .num (.finite ((m : ℚ) / 100))

def BudgetLine.toJson (line : BudgetLine) : Json :=
  .obj [("kind", .str line.kind.name), ("referenceId", .str line.referenceId.render),
    ("description", .str line.description), ("unitPrice", Money.toJson line.unitPrice),
    ("quantity", .num (.finite line.quantity))]

def BudgetCustomer.toJson (customer : BudgetCustomer) : Json :=
  .obj [("id", .str customer.id.render), ("name", .str customer.name),
    ("email", .str customer.email)]

def RepairTask.toJson (task : RepairTask) : Json :=
  .obj [("serviceId", .str task.serviceId.render), ("name", .str task.name)]

/-- The fields of a payload, as the `payload` column gives them back. -/
def Payload.fields : Payload → List (String × Json)
  | .empty => []
  | .generateBudget command =>
      [("customer", command.customer.toJson), ("lines", .arr (command.lines.map BudgetLine.toJson))]
  | .enqueueRepair command => [("tasks", .arr (command.tasks.map RepairTask.toJson))]
  | .reason why => [("reason", .str why.name)]

/-- `n` in `width` decimal digits at least. -/
def padded (width n : ℕ) : String :=
  let digits := toString n
  "".pushn '0' (width - digits.length) ++ digits

/-- Year, month and day of a day counted from the first of January 1970. -/
def civilDate (day : ℕ) : ℕ × ℕ × ℕ :=
  -- years begin in March here, so that a leap day is the last day of its year
  let era := (day + 719468) / 146097
  let dayOfEra := (day + 719468) % 146097
  let yearOfEra :=
    (dayOfEra - dayOfEra / 1460 + dayOfEra / 36524 - dayOfEra / 146096) / 365
  let dayOfYear := dayOfEra - (365 * yearOfEra + yearOfEra / 4 - yearOfEra / 100)
  let monthFromMarch := (5 * dayOfYear + 2) / 153
  let month := if monthFromMarch < 10 then monthFromMarch + 3 else monthFromMarch - 9
  (era * 400 + yearOfEra + (if month ≤ 2 then 1 else 0), month,
    dayOfYear - (153 * monthFromMarch + 2) / 5 + 1)

example : civilDate 0 = (1970, 1, 1) ∧ civilDate 11016 = (2000, 2, 29) := by decide

/-- `Date.prototype.toISOString` of a time in milliseconds. -/
def toISOString (time : ℕ) : String :=
  let (year, month, day) := civilDate (time / 86400000)
  (if year ≤ 9999 then padded 4 year else "+" ++ padded 6 year) ++ "-" ++ padded 2 month ++ "-" ++
    padded 2 day ++ "T" ++ padded 2 (time / 3600000 % 24) ++ ":" ++ padded 2 (time / 60000 % 60) ++
    ":" ++ padded 2 (time / 1000 % 60) ++ "." ++ padded 3 (time % 1000) ++ "Z"

theorem toISOString_ne_empty (time : ℕ) : toISOString time ≠ "" := by
  unfold toISOString
  simp only [ne_eq, String.append_eq_empty_iff, not_and]
  intro _
  decide

/-- `PendingMessage`. -/
structure PendingMessage extends MessageEnvelope where
  destination : MessageDestination
deriving Repr

/-- What `findPending` makes of a row. -/
def PrismaOutboxStore.pendingMessage (row : OutboxRow) : PendingMessage where
  messageId := (Uuid.text row.id).render
  destination := row.destination
  type := row.type.name
  serviceOrderId := (Uuid.text row.serviceOrderId).render
  occurredAt := toISOString row.createdAt
  -- a column that is null or empty is left out
  traceparent := row.traceparent.filter (· ≠ "")
  payload := row.payload.fields

/-- The `MessageBody` that `send` gives to the queue. -/
def SqsMessageSender.body (envelope : MessageEnvelope) : MessageBody := envelope.toJson.stringify

/-- What `execute` sends for a row: the message without its destination. -/
def PublishPendingMessages.body (row : OutboxRow) : MessageBody :=
  SqsMessageSender.body (PrismaOutboxStore.pendingMessage row).toMessageEnvelope

open PrismaOutboxStore (pendingMessage)

theorem SagaCommandType.name_ne_empty (type : SagaCommandType) : type.name ≠ "" := by
  cases type <;> decide

theorem pendingMessage_wellFormed (row : OutboxRow) :
    (pendingMessage row).toMessageEnvelope.WellFormed where
  messageId := Uuid.render_ne_empty row.id
  type := row.type.name_ne_empty
  serviceOrderId := Uuid.render_ne_empty row.serviceOrderId
  occurredAt := toISOString_ne_empty row.createdAt
  traceparent := by simp [pendingMessage, Option.filter_eq_some_iff]

theorem Json.inRangeElements_map {α : Type} {f : α → Json} (hf : ∀ a, (f a).inRange = true)
    (l : List α) : Json.inRangeElements (l.map f) = true := by
  induction l with
  | nil => rfl
  | cons a rest ih =>
      rw [List.map_cons, inRangeElements, hf a, ih]
      rfl

/-- No payload of the service holds a number that JSON cannot print. -/
theorem Payload.inRange_fields (payload : Payload) : Json.inRangeFields payload.fields = true := by
  cases payload with
  | empty => rfl
  | generateBudget command =>
      have hlines : Json.inRangeElements (command.lines.map BudgetLine.toJson) = true :=
        Json.inRangeElements_map (fun _ => rfl) command.lines
      simp [fields, Json.inRangeFields, Json.inRange, BudgetCustomer.toJson, hlines]
  | enqueueRepair command =>
      have htasks : Json.inRangeElements (command.tasks.map RepairTask.toJson) = true :=
        Json.inRangeElements_map (fun _ => rfl) command.tasks
      simp [fields, Json.inRangeFields, Json.inRange, htasks]
  | reason reason => rfl

/-- The body sent for a row is read back as the message `findPending` returned. -/
theorem parseEnvelope_body (row : OutboxRow) :
    parseEnvelope (PublishPendingMessages.body row) =
      some (pendingMessage row).toMessageEnvelope := by
  have hpayload : Json.printedFields row.payload.fields = row.payload.fields :=
    (Json.printedFields_eq_iff _).mpr row.payload.inRange_fields
  rw [PublishPendingMessages.body, SqsMessageSender.body, (pendingMessage_wellFormed row).parse]
  congr 2

/-- The reader of the dead letters knows each type that the service sends. -/
theorem FailedCommandHandler.handle_pendingMessage (row : OutboxRow) (traceparent : Option String) :
    FailedCommandHandler.handle (pendingMessage row).toMessageEnvelope traceparent =
      .ok (.handleFailedCommand
        { messageId := .read (pendingMessage row).messageId, type := row.type
          serviceOrderId := .read (pendingMessage row).serviceOrderId } traceparent) := by
  have hknown : sagaCommandTypes.find? (fun type => type.name = row.type.name) = some row.type := by
    cases row.type <;> decide
  unfold FailedCommandHandler.handle
  rw [show (pendingMessage row).type = row.type.name from rfl, hknown]

end CarRepairShop
