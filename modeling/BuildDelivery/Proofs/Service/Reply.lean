import BuildDelivery.Proofs.Connection
import BuildDelivery.Proofs.Exchange.Relay
import BuildDelivery.Proofs.Failure
import BuildDelivery.Proofs.Service.History
import BuildDelivery.Proofs.Wire.Size

/-! Which messages are replied to. A reply that does not fit into a frame is found out only when it
is to be sent. Then the peer is told nothing and the connection ends, whether the reply is a
response that conveys too much or a refusal that lists too many targets. -/

set_option autoImplicit false

namespace BuildDelivery

namespace Message

theorem exists_toFrame_iff {message : Message} :
    (∃ frame, message.toFrame = .ok frame) ↔ message.wireSize ≤ maxPayloadSize := by
  rw [← length_toBytes]
  constructor
  · rintro ⟨frame, framed⟩
    exact (toFrame_eq_ok_iff.mp framed).1
  · exact message.exists_toFrame

theorem toFrame_of_long {message : Message} (long : maxPayloadSize < message.wireSize) :
    message.toFrame = .error (.payloadSize message.wireSize) := by
  rw [← length_toBytes] at long ⊢
  exact if_neg (Nat.not_le.mpr long)

/-- What a client is told of the outcome of its request. -/
def ofOutcome : Except Failure (Response × Rule) → Message
  | .ok (response, _) => latestBuild response
  | .error failure => ofFailure failure

end Message

namespace Service

/-- The reply of a service on a catalog in memory. -/
def reply (service : Service MemoryCatalog) (message : Message) : Message :=
  ((message.respond (answer MemoryCatalog.lookup)).run service).1

/-- A question whose outcome by the rules is too long to be told in a frame. -/
inductive Overlong (policy : Policy) (catalog : MemoryCatalog) : Message → Prop where
  | question {request : Request} {outcome : Except Failure (Response × Rule)} :
      Decision policy MemoryCatalog.lookup request catalog outcome →
        maxPayloadSize < (Message.ofOutcome outcome).wireSize →
          Overlong policy catalog (.getLatestBuild request)

variable {policy : Policy} {catalog : MemoryCatalog} {service : Service MemoryCatalog}
  {request : Request}

theorem Decision.unique {σ : Type} {catalog : Catalog σ} {state : σ}
    {outcome other : Except Failure (Response × Rule)}
    (decision : Decision policy catalog request state outcome)
    (decision' : Decision policy catalog request state other) : outcome = other := by
  let service : Service σ := ⟨policy, ⟨policy.repaired.interval, policy.interval_repaired_pos⟩, state,
    .empty⟩
  have trusts : TrustsAnswers catalog request service := trustsAnswers_of_unlearned (.inr rfl)
  exact (resolve_of_decision trusts decision).symm.trans (resolve_of_decision trusts decision')

/-- A catalog in memory can always be asked, so nothing else makes a request fail. -/
theorem failure_of_decision {failure : Failure}
    (decision : Decision policy MemoryCatalog.lookup request catalog (.error failure)) :
    failure = .request .branchMissing ∨ failure = .request .targetsMissing ∨
      failure = .buildNotFound request.branch request.targets := by
  cases decision with
  | branchMissing unset => exact .inl rfl
  | targetsMissing set none => exact .inr (.inl rfl)
  | nobody set some decides => exact .inr (.inr rfl)
  | failed set some decides =>
    cases decides with
    | first split passed found other => cases (Prod.mk.inj found).1
  | unheard set some decides conveyance =>
    cases conveyance with
    | failed names apart answer => cases answer

theorem passesOver_empty (branch : BranchId) (targets : List Target) :
    MemoryCatalog.lookup.PassesOver branch targets .empty .empty := by
  induction targets with
  | nil => exact .none
  | cons target rest step =>
    have nothing : MemoryCatalog.empty.latest? ⟨branch, target⟩ = none := by
      simp [MemoryCatalog.latest?, MemoryCatalog.empty]
    exact .one (Prod.ext (congrArg Except.ok nothing) rfl) step

theorem decision_empty (policy : Policy) (set : request.branch.value ≠ 0)
    (some : request.targets ≠ []) :
    Decision policy MemoryCatalog.lookup request .empty
      (.error (.buildNotFound request.branch request.targets)) :=
  .nobody set some (.nobody (passesOver_empty request.branch request.targets))

theorem reply_getLatestBuild (service : Service MemoryCatalog)
    (request : Request) :
    reply service (.getLatestBuild request) =
      .ofOutcome (service.resolve MemoryCatalog.lookup request).1 := by
  rw [reply, Message.respond_getLatestBuild]
  change Message.tell ((service.resolve MemoryCatalog.lookup request).1.map Prod.fst) = _
  cases (service.resolve MemoryCatalog.lookup request).1 with
  | ok answered => rfl
  | error failure => rfl

/-- Whatever is no question has a reply of a few bytes. -/
theorem wireSize_reply_le (service : Service MemoryCatalog) {message : Message}
    (other : message.kind ≠ .getLatestBuild) : (reply service message).wireSize ≤ 50 := by
  have unexpected (kind : MessageKind) : (Message.error Failure.invalidRequestCode
      ("Unexpected message: " ++ kind.label)).wireSize ≤ 50 := by
    cases kind <;> decide
  cases message with
  | getLatestBuild request => exact absurd rfl other
  | latestBuild response => exact unexpected .latestBuild
  | error code text => exact unexpected .error
  | ping number => exact Nat.le_add_left 12 38
  | pong number => exact unexpected .pong

theorem overlong_iff (policy : Policy) (events : List Event) (message : Message) :
    Overlong policy (run policy events).catalog message ↔
      maxPayloadSize < (reply (run policy events) message).wireSize := by
  by_cases question : ∃ request, message = .getLatestBuild request
  · obtain ⟨request, rfl⟩ := question
    rw [reply_getLatestBuild]
    constructor
    · rintro ⟨decision, long⟩
      rwa [resolve_run_iff.mpr decision]
    · exact .question (resolve_run_iff.mp rfl)
  · have other : message.kind ≠ .getLatestBuild := by
      cases message with
      | getLatestBuild request => exact absurd ⟨request, rfl⟩ question
      | latestBuild _ | error _ _ | ping _ | pong _ => nofun
    have short := wireSize_reply_le (run policy events) other
    have limit : 50 ≤ maxPayloadSize := by decide
    refine iff_of_false ?_ (Nat.not_lt.mpr (Nat.le_trans short limit))
    rintro ⟨⟩
    exact other rfl

theorem payload_of_names {response : Response} {rule : Rule}
    (decision : Decision policy MemoryCatalog.lookup request catalog (.ok (response, rule)))
    (names : request.Names response.build) : response.payload = .upToDate := by
  cases decision with
  | answered set some decides conveyance =>
    cases conveyance with
    | fresh fresh => exact absurd names (fresh _)
    | same _ => rfl
    | unknown names' apart => exact absurd (names'.unique names) apart
    | compared names' apart => exact absurd (names'.unique names) apart

namespace Overlong

variable (overlong : Overlong policy catalog (.getLatestBuild request))
include overlong

/-- Only a refusal that lists the targets is long. It has three bytes for each byte of the request,
and a few more. -/
theorem of_failure {failure : Failure}
    (decision : Decision policy MemoryCatalog.lookup request catalog (.error failure)) :
    failure = .buildNotFound request.branch request.targets ∧
      maxPayloadSize < 3 * (Message.getLatestBuild request).wireSize + 17 := by
  obtain ⟨decision', long⟩ := overlong
  obtain rfl := decision.unique decision'
  rcases failure_of_decision decision with rfl | rfl | rfl
  · exact absurd long (by decide)
  · exact absurd long (by decide)
  · have text := Failure.utf8ByteSize_buildNotFound_le request.branch request.targets
    refine ⟨rfl, ?_⟩
    simp only [Message.ofOutcome, Message.ofFailure, Message.wireSize] at long
    simp only [Message.wireSize, Request.wireSize]
    omega

/-- To be up to date takes no more bytes than to ask. -/
theorem not_names (short : (Message.getLatestBuild request).wireSize ≤ maxPayloadSize)
    {response : Response} {rule : Rule}
    (decision : Decision policy MemoryCatalog.lookup request catalog (.ok (response, rule))) :
    ¬request.Names response.build := by
  intro names
  obtain ⟨decision', long⟩ := overlong
  obtain rfl := decision.unique decision'
  have told := payload_of_names decision names
  simp only [Message.ofOutcome, Message.wireSize, Response.wireSize, told, Payload.wireSize] at long
  simp only [Message.wireSize, Request.wireSize, names.1, Option.map_some, Option.getD_some]
    at short
  omega

end Overlong

section
variable {message : Message} {asked rest : Bytes} {feed : Feed}

theorem run_respond (service : Service MemoryCatalog) (message : Message) :
    (message.respond (answer MemoryCatalog.lookup)).run service =
      (reply service message,
        ((message.respond (answer MemoryCatalog.lookup)).run service).2) := rfl

/-- Where the reply is too long the peer is told nothing. -/
theorem serve_of_long (framed : message.toFrame = .ok asked) (arrives : feed.bytes = asked ++ rest)
    (long : maxPayloadSize < (reply service message).wireSize) :
    ((Connection.serve (answer MemoryCatalog.lookup) feed).run service).1 =
      ⟨[], .error (.protocol (.payloadSize (reply service message).wireSize))⟩ := by
  rw [Connection.serve_of_tooLong (carries_of_toFrame framed) arrives
    (run_respond service message) (Message.toFrame_of_long long)]

theorem serve_of_fits (framed : message.toFrame = .ok asked) (arrives : feed.bytes = asked ++ rest)
    {sent : Bytes} (fits : (reply service message).toFrame = .ok sent) :
    ∃ later, ((Connection.serve (answer MemoryCatalog.lookup) feed).run service).1.written =
      sent :: later := by
  obtain ⟨behind, -, -, served⟩ := Connection.serve_of_reply (carries_of_toFrame framed) arrives
    (run_respond service message) fits
  rw [served _ _ rfl]
  exact ⟨_, rfl⟩

end

/-- After any history, a message is replied to unless its reply is too long by the rules. If it is,
the connection ends without a reply. Only a question can lead there: one that fails and takes about
a third of the limit itself, or one that is answered with a build that it does not name. -/
theorem replied_unless_overlong (policy : Policy) (events : List Event) {message : Message}
    {asked : Bytes} (framed : message.toFrame = .ok asked) :
    ((∃ sent, (reply (run policy events) message).toFrame = .ok sent) ↔
      ¬Overlong policy (run policy events).catalog message) ∧
    (∀ (feed : Feed) (rest : Bytes), feed.bytes = asked ++ rest →
      (Overlong policy (run policy events).catalog message →
        ((Connection.serve (answer MemoryCatalog.lookup) feed).run (run policy events)).1 =
          ⟨[], .error (.protocol
            (.payloadSize (reply (run policy events) message).wireSize))⟩) ∧
      ∀ sent, (reply (run policy events) message).toFrame = .ok sent →
        ∃ later, ((Connection.serve (answer MemoryCatalog.lookup) feed).run
          (run policy events)).1.written = sent :: later) ∧
    (Overlong policy (run policy events).catalog message →
      ∃ request, message = .getLatestBuild request ∧
        (∀ failure, Decision policy MemoryCatalog.lookup request (run policy events).catalog
          (.error failure) → failure = .buildNotFound request.branch request.targets ∧
            maxPayloadSize < 3 * message.wireSize + 17) ∧
        ∀ response rule, Decision policy MemoryCatalog.lookup request (run policy events).catalog
          (.ok (response, rule)) → ¬request.Names response.build) := by
  refine ⟨?_, fun feed rest arrives => ⟨fun overlong => ?_, fun sent fits => ?_⟩, ?_⟩
  · rw [overlong_iff, Message.exists_toFrame_iff, Nat.not_lt]
  · exact serve_of_long framed arrives ((overlong_iff policy events message).mp overlong)
  · exact serve_of_fits framed arrives fits
  · intro overlong
    cases message with
    | latestBuild _ | error _ _ | ping _ | pong _ => cases overlong
    | getLatestBuild request =>
      have short := Message.exists_toFrame_iff.mp ⟨asked, framed⟩
      exact ⟨request, rfl, fun _ => overlong.of_failure, fun _ _ => overlong.not_names short⟩

theorem refused_question :
    ∃ asked sent later,
      (Message.getLatestBuild Connection.question).toFrame = .ok asked ∧
      (reply (start .usual .empty) (.getLatestBuild Connection.question)).toFrame = .ok sent ∧
      ((Connection.serve (answer MemoryCatalog.lookup) (.whole asked .closed)).run
        (start .usual .empty)).1.written = sent :: later := by
  have small : (Message.getLatestBuild Connection.question).wireSize ≤ maxPayloadSize := by decide
  obtain ⟨asked, framed⟩ := Message.exists_toFrame_iff.mpr small
  obtain ⟨fits, serves, long⟩ := replied_unless_overlong .usual [] framed
  have set : Connection.question.branch.value ≠ 0 := by decide
  have decision := decision_empty .usual set (List.cons_ne_nil _ _)
  obtain ⟨sent, replied⟩ := fits.mpr fun overlong => by
    obtain ⟨request, same, failing, -⟩ := long overlong
    cases same
    exact absurd (failing _ decision).2 (by decide)
  have arrives : (Feed.whole asked .closed).bytes = asked ++ [] := rfl
  obtain ⟨later, written⟩ := (serves _ _ arrives).2 sent replied
  exact ⟨asked, sent, later, framed, replied, written⟩

/-- Lists one target again and again. -/
def flood (count : Nat) : Request := ⟨⟨7⟩, .windowsX64 :: List.replicate count .windowsX64, none⟩

theorem wireSize_flood (count : Nat) :
    (Message.getLatestBuild (flood count)).wireSize = 25 + 4 * count := by
  simp only [Message.wireSize, Request.wireSize, flood, List.length_cons, List.length_replicate,
    Option.map_none, Option.getD_none]
  omega

theorem wireSize_refused_flood (count : Nat) :
    (Message.ofFailure (.buildNotFound (flood count).branch (flood count).targets)).wireSize =
      71 + 12 * count := by
  have number : (BranchId.mk 7).toText.utf8ByteSize = 1 := by decide
  have label : Target.windowsX64.label.utf8ByteSize = 10 := by decide
  have separator : ", ".utf8ByteSize = 2 := by decide
  have labels : (flood count).targets.map Target.label =
      Target.windowsX64.label :: List.replicate count Target.windowsX64.label := by
    simp only [flood, List.map_cons, List.map_replicate]
  simp only [Message.ofFailure, Message.wireSize]
  rw [Failure.utf8ByteSize_buildNotFound, labels, utf8ByteSize_intercalate_cons,
    List.map_replicate, List.sum_replicate_nat, label, separator]
  change 16 + (44 + (BranchId.mk 7).toText.utf8ByteSize + _) = _
  omega

theorem reply_flood (policy : Policy) (count : Nat) :
    reply (start policy .empty) (.getLatestBuild (flood count)) =
      .ofFailure (.buildNotFound (flood count).branch (flood count).targets) := by
  have set : (BranchId.mk 7).value ≠ 0 := by decide
  have decision : Decision policy MemoryCatalog.lookup (flood count) (run policy []).catalog
      (.error (.buildNotFound (flood count).branch (flood count).targets)) :=
    decision_empty policy set (List.cons_ne_nil _ _)
  rw [reply_getLatestBuild]
  exact congrArg Message.ofOutcome (resolve_run_iff.mpr decision)

/-- A question of 22 million bytes, for which the refusal has 67 million. -/
theorem flood_unanswered :
    ∃ asked, (Message.getLatestBuild (flood 5592409)).toFrame = .ok asked ∧
      (reply (start .usual .empty) (.getLatestBuild (flood 5592409))).toFrame =
        .error (.payloadSize 67108979) ∧
      ((Connection.serve (answer MemoryCatalog.lookup) (.whole asked .closed)).run
        (start .usual .empty)).1 = ⟨[], .error (.protocol (.payloadSize 67108979))⟩ := by
  have small : (Message.getLatestBuild (flood 5592409)).wireSize ≤ maxPayloadSize := by
    rw [wireSize_flood]
    decide
  obtain ⟨asked, framed⟩ := Message.exists_toFrame_iff.mpr small
  have size := wireSize_refused_flood 5592409
  rw [← reply_flood .usual] at size
  have long : maxPayloadSize <
      (reply (start .usual .empty) (.getLatestBuild (flood 5592409))).wireSize :=
    Nat.lt_of_lt_of_eq (by decide) size.symm
  have tooLong := Message.toFrame_of_long long
  have arrives : (Feed.whole asked .closed).bytes = asked ++ [] := rfl
  have dropped := serve_of_long framed arrives long
  rw [size] at tooLong dropped
  exact ⟨asked, framed, tooLong, dropped⟩

end Service

end BuildDelivery
