import CertRegistry.Proofs.Command.Overrides
import CertRegistry.Proofs.Node.Documents
import CertRegistry.Proofs.Rest.Exchanges

/-!
# What commands print is read back

Statuses are found in what a command prints for them as they are, and in any other text that is
written for them. Of agents the printed text tells all four members.
-/

namespace CertRegistry

open Json

/-! ## Agents -/

/-- Whether a value shows an agent: its texts as they are and its time as a whole number. -/
structure Agent.IsShown (agent : Agent) (value : Value) : Prop where
  publicKey : value.member? "public_key" = some (.text agent.publicKey)
  name : value.member? "name" = some (.text agent.name)
  organizationId : value.member? "organization_id" = some (.text agent.organizationId)
  timestamp : value.member? "timestamp" = some (.number (.natural agent.timestamp.toNat))

namespace Agent

theorem IsShown.unique {agent agent' : Agent} {value : Value} (h : agent.IsShown value)
    (h' : agent'.IsShown value) : agent = agent' := by
  have hkey := h.publicKey.symm.trans h'.publicKey
  have hname := h.name.symm.trans h'.name
  have horganization := h.organizationId.symm.trans h'.organizationId
  have htime := h.timestamp.symm.trans h'.timestamp
  obtain ⟨publicKey, name, organizationId, timestamp⟩ := agent
  obtain ⟨publicKey', name', organizationId', timestamp'⟩ := agent'
  simp only [Option.some.injEq, Value.text.injEq, Value.number.injEq, Number.natural.injEq,
    UInt64.toNat_inj] at hkey hname horganization htime
  rw [hkey, hname, horganization, htime]

/-- Members are printed in the order of their names. -/
theorem toJson_eq (agent : Agent) : agent.toJson = .object [("name", .text agent.name),
    ("organization_id", .text agent.organizationId), ("public_key", .text agent.publicKey),
    ("timestamp", .number (.natural agent.timestamp.toNat))] := by
  simp (disch := decide) only [toJson, Value.record, List.foldl_cons, List.foldl_nil,
    putMember_nil, putMember_of_lt, putMember_of_gt]

theorem isShown_toJson (agent : Agent) : agent.IsShown agent.toJson := by
  rw [toJson_eq]
  constructor <;> simp [Value.member?]

theorem fits_toJson (agent : Agent) (depth : Nat) : agent.toJson.Fits (depth + 3) := by
  have htime : agent.timestamp.toNat ≤ maxWord := Nat.le_sub_one_of_lt agent.timestamp.toNat_lt
  have hkeys : ["name", "organization_id", "public_key", "timestamp"].Pairwise (· < ·) := by decide
  rw [toJson_eq]
  refine .object (List.pairwise_map.mp hkeys) fun m hm => ?_
  simp only [List.mem_cons, List.not_mem_nil, or_false] at hm
  rcases hm with rfl | rfl | rfl | rfl
  · exact .text _ _
  · exact .text _ _
  · exact .text _ _
  · exact .natural _ htime

end Agent

/-! ## Printed values -/

theorem Json.Value.IsPlain.isOf_stdout {v : Value} (h : v.IsPlain) :
    v.doc.IsOf (Outcome.printed v).stdout :=
  (h.isText_pretty 0).isOf_line

/-- A printed value is read back as it is. -/
theorem Json.Value.Fits.parse_stdout {v : Value} (h : v.Fits maxDepth) :
    Reader.value.parse (Outcome.printed v).stdout = .ok v :=
  h.parse h.isPlain.isOf_stdout

namespace Agent

theorem parse_list (agents : List Agent) :
    Reader.value.parse (Outcome.printed (.list (agents.map (·.toJson)))).stdout =
      .ok (.list (agents.map (·.toJson))) :=
  Value.Fits.parse_stdout (.list (List.forall_mem_map.mpr fun agent _ => agent.fits_toJson 124))

theorem toJson_injective : Function.Injective toJson := by
  intro agent agent' h
  have hshown := agent.isShown_toJson
  rw [h] at hshown
  exact hshown.unique agent'.isShown_toJson

theorem stdout_injective :
    Function.Injective fun agent => (Outcome.printed (toJson agent)).stdout := by
  intro agent agent' h
  have hparse := (agent.fits_toJson 125).parse_stdout
  rw [show (Outcome.printed agent.toJson).stdout = _ from h] at hparse
  have hparse' := (agent'.fits_toJson 125).parse_stdout
  exact toJson_injective (Except.ok.inj (hparse.symm.trans hparse'))

theorem stdout_list_injective : Function.Injective fun agents : List Agent =>
    (Outcome.printed (.list (agents.map (·.toJson)))).stdout := by
  intro agents agents' h
  have hparse := parse_list agents
  rw [show (Outcome.printed (.list (agents.map (·.toJson)))).stdout = _ from h] at hparse
  have hlists := Value.list.inj (Except.ok.inj (hparse.symm.trans (parse_list agents')))
  exact toJson_injective.list_map hlists

end Agent

/-! ## Statuses -/

namespace BatchStatus

/-- Statuses as they are written with their members in the order of the declaration. -/
def writtenList (statuses : List BatchStatus) : Value :=
  .list (statuses.map fun s => .object (s.written fun t => .object t.written))

/-- What is written for statuses, on one line or on many: by themselves, by way of a value, and by a
command. -/
def texts (statuses : List BatchStatus) : List String :=
  [(writtenList statuses).compact, (writtenList statuses).pretty, (listJson statuses).compact,
    (listJson statuses).pretty, (Outcome.printed (listJson statuses)).stdout]

theorem meant_declared (s : BatchStatus) :
    schema.meant (Value.object (s.written fun t => .object t.written)).doc = some s :=
  meant_written InvalidTransaction.meant_written s

theorem isPlain_writtenList (statuses : List BatchStatus) : (writtenList statuses).IsPlain :=
  .list (List.forall_mem_map.mpr fun s _ =>
    .object (s.isPlain_written fun t => .object t.isPlain_written))

theorem isPlain_listJson (statuses : List BatchStatus) : (listJson statuses).IsPlain :=
  .list (List.forall_mem_map.mpr fun s _ => s.isPlain_toJson)

theorem parse_of_mem_texts {statuses : List BatchStatus} {text : String}
    (h : text ∈ texts statuses) : (Reader.list shape.reader).parse text = .ok statuses := by
  have hwritten := isPlain_writtenList statuses
  have hsorted := isPlain_listJson statuses
  simp only [texts, List.mem_cons, List.not_mem_nil, or_false] at h
  rcases h with rfl | rfl | rfl | rfl | rfl
  · exact parse_list meant_declared hwritten.isText_compact.isOf
  · exact parse_list meant_declared (hwritten.isText_pretty 0).isOf
  · exact parse_list meant_toJson hsorted.isText_compact.isOf
  · exact parse_list meant_toJson (hsorted.isText_pretty 0).isOf
  · exact parse_list meant_toJson hsorted.isOf_stdout

/-- Whether two texts are those of documents that differ at most in the order of members and in
members that nobody asks for. -/
def AreAlike (text text' : String) : Prop :=
  ∃ d d', d.IsOf text ∧ d'.IsOf text' ∧ Alike d d'

end BatchStatus

/-! ## What commands are told -/

namespace Command

variable {σ : Type}

section Told

variable (node : Rest.Node σ) (start : σ) (around : Surroundings) (config : Config)

/-- The statuses that a node tells of batches. -/
def toldStatuses (ids : List String) : Except Failure (List BatchStatus) := do
  let client ← (RegistryClient.ofConfig config).mapError Failure.registry
  converse .node (client.rest.statuses node ids (some config.polling.statusWaitSeconds)) start

/-- The statuses that a node tells of a batch that makes the signer an agent. -/
def toldCreation (name : String) (timestamp : Option UInt64) (keyFile : Option String) :
    Except Failure (List BatchStatus) := do
  let signer ← signer around keyFile
  let client ← (RegistryClient.ofConfig config).mapError Failure.registry
  converse .registry (client.createAgent node signer around.freshNonce (some name)
    (timestamp.getD around.now)) start

/-- The agent that a node tells of. -/
def toldAgent (publicKey : String) : Except Failure Agent := do
  let client ← (RegistryClient.ofConfig config).mapError Failure.registry
  match ← converse .registry (client.fetchAgent node around.pages publicKey) start with
  | some found => return found
  | none => throw (.noAgent publicKey)

/-- The agents that a node tells of. -/
def toldAgents : Except Failure (List Agent) := do
  let client ← (RegistryClient.ofConfig config).mapError Failure.registry
  converse .registry (client.listAgents node around.pages) start

end Told

section Printed

variable (node : Rest.Node σ) (start : σ) (around : Surroundings) (config : Config)

theorem run_status_told (ids : List String) : (Command.status ids).run node start around config =
    (fun statuses => .printed (BatchStatus.listJson statuses)) <$>
      toldStatuses node start config ids := by
  rw [run, toldStatuses, map_bind]
  rfl

theorem run_createAgent (name : String) (timestamp : Option UInt64) (keyFile : Option String) :
    (Command.createAgent name timestamp keyFile).run node start around config =
      (fun statuses => .printed (BatchStatus.listJson statuses)) <$>
        toldCreation node start around config name timestamp keyFile := by
  rw [run, toldCreation, map_bind]
  simp only [map_bind]
  rfl

theorem run_agent (publicKey : String) :
    (Command.agent publicKey).run node start around config =
      (fun agent => .printed agent.toJson) <$> toldAgent node start around config publicKey := by
  rw [run, toldAgent, map_bind]
  simp only [map_bind]
  refine bind_congr fun client => bind_congr fun found => ?_
  cases found <;> rfl

theorem run_agents : Command.agents.run node start around config =
    (fun agents => .printed (.list (agents.map (·.toJson)))) <$>
      toldAgents node start around config := by
  rw [run, toldAgents, map_bind]
  rfl

end Printed

/-- Reading what a command prints undoes the printing, if what it prints is read back. -/
theorem read_printed {α β : Type} {ran : Except Failure Outcome} {told : Except Failure α}
    {print : α → Outcome} (hran : ran = print <$> told) {read : Outcome → β} {found : α → β}
    (hread : ∀ a, read (print a) = found a) : read <$> ran = found <$> told := by
  rw [hran, ← comp_map]
  exact congrArg (· <$> told) (funext hread)

/-- Statuses are read back from what is written for them and from what commands print, whatever the
order of their members and the members besides. Of agents the commands print a value that tells all
four members. -/
theorem printed_read_back (node : Rest.Node σ) (start : σ) (around : Surroundings)
    (config : Config) :
    (∀ (statuses : List BatchStatus), ∀ text ∈ BatchStatus.texts statuses,
      (Reader.list BatchStatus.shape.reader).parse text = .ok statuses) ∧
    (∀ ids, (fun outcome => (Reader.list BatchStatus.shape.reader).parse outcome.stdout) <$>
        (Command.status ids).run node start around config =
      .ok <$> toldStatuses node start config ids) ∧
    (∀ name timestamp keyFile,
      (fun outcome => (Reader.list BatchStatus.shape.reader).parse outcome.stdout) <$>
        (Command.createAgent name timestamp keyFile).run node start around config =
      .ok <$> toldCreation node start around config name timestamp keyFile) ∧
    (∀ text text', BatchStatus.AreAlike text text' → ∀ s,
      BatchStatus.shape.reader.parse text = .ok s ↔ BatchStatus.shape.reader.parse text' = .ok s) ∧
    (∀ publicKey, (fun outcome => Reader.value.parse outcome.stdout) <$>
        (Command.agent publicKey).run node start around config =
      (fun agent => .ok agent.toJson) <$> toldAgent node start around config publicKey) ∧
    ((fun outcome => Reader.value.parse outcome.stdout) <$>
        Command.agents.run node start around config =
      (fun agents => .ok (.list (agents.map (·.toJson)))) <$>
        toldAgents node start around config) ∧
    (∀ agent agent' : Agent, agent.IsShown agent'.toJson ↔ agent = agent') ∧
    (Function.Injective fun agent : Agent => (Outcome.printed agent.toJson).stdout) ∧
    Function.Injective fun agents : List Agent =>
      (Outcome.printed (.list (agents.map (·.toJson)))).stdout := by
  have hprinted (statuses : List BatchStatus) :
      (Reader.list BatchStatus.shape.reader).parse
        (Outcome.printed (BatchStatus.listJson statuses)).stdout = .ok statuses :=
    BatchStatus.parse_of_mem_texts (by simp [BatchStatus.texts])
  refine ⟨fun statuses text h => BatchStatus.parse_of_mem_texts h,
    fun ids => read_printed (run_status_told node start around config ids) hprinted,
    fun name timestamp keyFile =>
      read_printed (run_createAgent node start around config name timestamp keyFile) hprinted,
    ?_, ?_, ?_, ?_, Agent.stdout_injective, Agent.stdout_list_injective⟩
  · rintro text text' ⟨d, d', h, h', halike⟩ s
    exact BatchStatus.parse_iff_of_alike h h' halike s
  · exact fun publicKey => read_printed (run_agent node start around config publicKey)
      fun agent => (agent.fits_toJson 125).parse_stdout
  · exact read_printed (run_agents node start around config) Agent.parse_list
  · intro agent agent'
    constructor
    · exact fun h => h.unique agent'.isShown_toJson
    · rintro rfl
      exact agent.isShown_toJson

end Command

/-! ## A status with members besides -/

def InvalidTransaction.refusedSample : InvalidTransaction where
  id := "0b"
  message := "Name was not provided"
  extendedData := some ""

/-- A status of a batch with one refused transaction. -/
def BatchStatus.refusedSample : BatchStatus where
  id := "0a"
  status := .invalid
  invalidTransactions := [.refusedSample]

namespace Json.Value

/-- The transaction with members in another order and one between them. -/
def refusedTransaction : Value :=
  .object [("extended_data", .text ""), ("code", .list [.bool true]),
    ("message", .text "Name was not provided"), ("id", .text "0b")]

/-- The status with members in another order and one before them. -/
def refusedStatus : Value :=
  .object [("link", .null), ("invalid_transactions", .list [refusedTransaction]),
    ("status", .text "INVALID"), ("id", .text "0a")]

theorem isPlain_refusedTransaction : refusedTransaction.IsPlain := by
  refine .object ?_
  simp only [List.forall_mem_cons, List.not_mem_nil, false_imp_iff, implies_true, and_true]
  exact ⟨.text _, .list (List.forall_mem_singleton.mpr (.bool _)), .text _, .text _⟩

theorem isPlain_refusedStatus : refusedStatus.IsPlain := by
  refine .object ?_
  simp only [List.forall_mem_cons, List.not_mem_nil, false_imp_iff, implies_true, and_true]
  exact ⟨.null, .list (List.forall_mem_singleton.mpr isPlain_refusedTransaction), .text _, .text _⟩

end Json.Value

theorem InvalidTransaction.alike_refusedSample :
    Alike Value.refusedTransaction.doc (Value.object refusedSample.written).doc := by
  refine .object (List.reverse_perm _).symm ?_
  simp only [Value.docMembers, concerning, concerns, List.filter_cons, Spelled.string?_ofText]
  exact .cons (sameMember_ofText rfl) (.cons (sameMember_ofText rfl)
    (.cons (sameMember_ofText rfl) .nil))

theorem BatchStatus.alike_refusedSample : Alike Value.refusedStatus.doc
    (Value.object (refusedSample.written fun t => .object t.written)).doc := by
  refine .object (List.reverse_perm _).symm ?_
  simp only [Value.docMembers, concerning, concerns, List.filter_cons, Spelled.string?_ofText]
  exact .cons (sameMember_ofText (.inl rfl)) (.cons (sameMember_ofText (.inl rfl))
    (.cons (sameMember_ofText (.inr ⟨rfl,
      .list (.cons InvalidTransaction.alike_refusedSample .nil)⟩)) .nil))

namespace Command

theorem printed_read_back_reordered :
    BatchStatus.AreAlike Value.refusedStatus.pretty
        (Value.object (BatchStatus.refusedSample.written fun t => .object t.written)).compact ∧
      BatchStatus.shape.reader.parse Value.refusedStatus.pretty = .ok .refusedSample := by
  have hplain := BatchStatus.refusedSample.isPlain_written fun t => .object t.isPlain_written
  have htext := (Value.IsPlain.object hplain).isText_compact.isOf
  have halike : BatchStatus.AreAlike Value.refusedStatus.pretty
      (Value.object (BatchStatus.refusedSample.written fun t => .object t.written)).compact :=
    ⟨_, _, (Value.isPlain_refusedStatus.isText_pretty 0).isOf, htext,
      BatchStatus.alike_refusedSample⟩
  have hsame := (printed_read_back Rest.Node.scripted [] (.sample "" none) {}).2.2.2.1 _ _ halike
    .refusedSample
  have hread := (Reader.parse_eq_ok_iff (BatchStatus.understands_shape 124) htext).mpr
    (BatchStatus.meant_declared _)
  exact ⟨halike, hsame.mpr hread⟩

end Command

end CertRegistry
