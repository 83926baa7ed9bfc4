import BuildDelivery.Proofs.Wire.Codec
import Mathlib.Logic.Function.Iterate

/-! What a client learns of the outcome of its request. A response arrives as it was sent. Of a
failure the code and the text arrive, and as the code alone tells how a failure is classified,
servers that ask other servers can pass it on any number of times. -/

set_option autoImplicit false

namespace BuildDelivery

namespace Failure

/-- The failure as a client knows it that was told of it. -/
def reported (failure : Failure) : Failure := remote failure.code failure.message

theorem isRetryable_eq (failure : Failure) :
    failure.isRetryable = (failure.code == unavailableCode) := by
  cases failure <;> rfl

theorem isNotFound_eq (failure : Failure) : failure.isNotFound = (failure.code == notFoundCode) := by
  cases failure <;> rfl

/-- Failures with one code that are classified alike. -/
structure Alike (left right : Failure) : Prop where
  code : left.code = right.code
  isRetryable : left.isRetryable = right.isRetryable
  isNotFound : left.isNotFound = right.isNotFound

theorem alike_of_code {left right : Failure} (same : left.code = right.code) : left.Alike right where
  code := same
  isRetryable := by rw [isRetryable_eq, isRetryable_eq, same]
  isNotFound := by rw [isNotFound_eq, isNotFound_eq, same]

theorem code_iterate_reported (times : Nat) (failure : Failure) :
    (reported^[times] failure).code = failure.code := by
  induction times with
  | zero => rfl
  | succ times step =>
    rw [Function.iterate_succ_apply']
    exact step

end Failure

namespace Message

/-- The reply to a question with this outcome. -/
def tell : Except Failure Response → Message
  | .ok response => latestBuild response
  | .error failure => ofFailure failure

theorem toResponse_tell (outcome : Except Failure Response) :
    (tell outcome).toResponse = outcome.mapError Failure.reported := by
  cases outcome <;> rfl

theorem respond_getLatestBuild {σ : Type} (answer : Request → StateM σ (Except Failure Response))
    (request : Request) (state : σ) :
    (((getLatestBuild request).respond answer).run state).1 =
      tell ((answer request).run state).1 := by
  have ran : (answer request).run state =
      (((answer request).run state).1, ((answer request).run state).2) := rfl
  unfold respond
  rw [run_bind_of_run ran]
  cases ((answer request).run state).1 <;> rfl

end Message

variable {σ : Type} {answer : Request → StateM σ (Except Failure Response)} {state : σ}
  {request : Request} {outcome told : Except Failure Response} {asked sent rest : Bytes}
  {feed : Feed}

/-- A client that asks a server with this outcome is told this. Question and reply fit into frames,
and the client reads what the server has written. -/
inductive Exchange (outcome : Except Failure Response) : Except Failure Response → Prop where
  | call {σ : Type} {answer : Request → StateM σ (Except Failure Response)} {state : σ}
      {request : Request} {asked sent rest : Bytes} {feed : Feed} (codec : Codec) :
      (Message.getLatestBuild request).toFrame = .ok asked →
        ((answer request).run state).1 = outcome →
          (((Message.getLatestBuild request).respond answer).run state).1.toFrame = .ok sent →
            feed.bytes = sent ++ rest → Exchange outcome (codec.call request feed).2.1

/-- Servers each of which comes to the outcome that it was told as the client of the one before. -/
inductive Relayed (outcome : Except Failure Response) : Nat → Except Failure Response → Prop where
  | direct : Relayed outcome 0 outcome
  | onward {hops : Nat} {known told : Except Failure Response} :
      Relayed outcome hops known → Exchange known told → Relayed outcome (hops + 1) told

theorem Codec.call_of_reply {message : Message}
    (framed : (Message.getLatestBuild request).toFrame = .ok asked)
    (fits : message.toFrame = .ok sent) (arrives : feed.bytes = sent ++ rest) (codec : Codec) :
    ∃ after, codec.call request feed = (asked, message.toResponse, after) := by
  obtain ⟨behind, after, found, -⟩ := Reader.reads_frame Reader.codec_forgets fits arrives codec
  refine ⟨after, ?_⟩
  unfold call
  simp only [framed, found]

theorem Codec.call_of_outcome (framed : (Message.getLatestBuild request).toFrame = .ok asked)
    (fits : (((Message.getLatestBuild request).respond answer).run state).1.toFrame = .ok sent)
    (arrives : feed.bytes = sent ++ rest) (codec : Codec) :
    ∃ after, codec.call request feed =
      (asked, ((answer request).run state).1.mapError Failure.reported, after) := by
  obtain ⟨after, called⟩ := call_of_reply framed fits arrives codec
  rw [Message.respond_getLatestBuild, Message.toResponse_tell] at called
  exact ⟨after, called⟩

theorem Exchange.told_eq (exchange : Exchange outcome told) :
    told = outcome.mapError Failure.reported := by
  cases exchange with
  | call codec framed answered fits arrives =>
    obtain ⟨after, called⟩ := Codec.call_of_outcome framed fits arrives codec
    rw [called, answered]

theorem Relayed.told_eq {hops : Nat} (relayed : Relayed outcome hops told) :
    told = outcome.mapError Failure.reported^[hops] := by
  induction relayed with
  | direct => cases outcome <;> rfl
  | onward _ exchange step =>
    rw [exchange.told_eq, step]
    cases outcome with
    | ok response => rfl
    | error failure =>
      exact congrArg Except.error (Function.iterate_succ_apply' Failure.reported _ failure).symm

/-- To tell an outcome takes no more than that it fits. -/
theorem exchange_iff :
    Exchange outcome told ↔ told = outcome.mapError Failure.reported ∧
      ∃ sent, (Message.tell outcome).toFrame = .ok sent := by
  constructor
  · intro exchange
    refine ⟨exchange.told_eq, ?_⟩
    cases exchange with
    | @call _ answer state request _ sent _ _ codec framed answered fits arrives =>
      rw [Message.respond_getLatestBuild, answered] at fits
      exact ⟨sent, fits⟩
  · rintro ⟨rfl, sent, fits⟩
    let request : Request := ⟨⟨1⟩, [], none⟩
    let answer : Request → StateM Unit (Except Failure Response) := fun _ => pure outcome
    obtain ⟨asked, framed⟩ := (Message.getLatestBuild request).exists_toFrame (by decide +kernel)
    have arrives : (Feed.whole sent .closed).bytes = sent ++ [] := rfl
    have replied : (((Message.getLatestBuild request).respond answer).run ()).1.toFrame = .ok sent := by
      rw [Message.respond_getLatestBuild]
      exact fits
    obtain ⟨after, called⟩ := Codec.call_of_outcome framed replied arrives .empty
    have exchange := Exchange.call .empty framed rfl replied arrives
    rw [called] at exchange
    exact exchange

/-- A client whose question and whose reply fit into frames writes its question and no more. It has
a response if and only if the server has it. Of a failure it has the code and the text, which is a
failure of the same class; and this is still so for the client of the last of any servers that
relay what they are told. -/
theorem Codec.call_is_faithful (framed : (Message.getLatestBuild request).toFrame = .ok asked)
    (fits : (((Message.getLatestBuild request).respond answer).run state).1.toFrame = .ok sent)
    (arrives : feed.bytes = sent ++ rest) (codec : Codec) :
    (codec.call request feed).1 = asked ∧
    (∀ response, (codec.call request feed).2.1 = .ok response ↔
      ((answer request).run state).1 = .ok response) ∧
    (∀ failure, ((answer request).run state).1 = .error failure →
      (codec.call request feed).2.1 = .error (.remote failure.code failure.message) ∧
        (Failure.remote failure.code failure.message).Alike failure) ∧
    ∀ hops told, Relayed (codec.call request feed).2.1 hops told →
      (∀ response, told = .ok response ↔ ((answer request).run state).1 = .ok response) ∧
      ∀ failure, ((answer request).run state).1 = .error failure →
        told = .error (Failure.reported^[hops + 1] failure) ∧
          (Failure.reported^[hops + 1] failure).Alike failure := by
  obtain ⟨after, called⟩ := call_of_outcome framed fits arrives codec
  have passed {hops : Nat} {told : Except Failure Response}
      (relayed : Relayed (codec.call request feed).2.1 hops told) :
      told = ((answer request).run state).1.mapError Failure.reported^[hops + 1] := by
    rw [relayed.told_eq, called]
    cases ((answer request).run state).1 <;> rfl
  refine ⟨?_, fun response => ?_, fun failure failed => ?_, fun hops told relayed => ?_⟩
  · rw [called]
  · rw [called]
    exact mapError_eq_ok_iff
  · rw [called, failed]
    exact ⟨rfl, Failure.alike_of_code rfl⟩
  · rw [passed relayed]
    refine ⟨fun response => mapError_eq_ok_iff, fun failure failed => ?_⟩
    rw [failed]
    exact ⟨rfl, Failure.alike_of_code (Failure.code_iterate_reported _ failure)⟩

/-- The directory of a server is gone. -/
def outage : Failure := .store (.notADirectory "builds")

theorem relayed_outage :
    ∃ (request : Request) (feed : Feed) (last : Failure),
      Relayed (Codec.empty.call request feed).2.1 1 (.error last) ∧
        last.Alike outage ∧ last.isRetryable = true ∧
          last.message = "Remote error 503: Remote error 503: " ++ outage.message := by
  let request : Request := ⟨⟨1⟩, [.linuxX64], none⟩
  let answer : Request → StateM Unit (Except Failure Response) := fun _ => pure (.error outage)
  obtain ⟨asked, framed⟩ := (Message.getLatestBuild request).exists_toFrame (by decide +kernel)
  obtain ⟨sent, fits⟩ := (Message.ofFailure outage).exists_toFrame (by decide +kernel)
  obtain ⟨relay, fits'⟩ := (Message.ofFailure outage.reported).exists_toFrame (by decide +kernel)
  have replied : (((Message.getLatestBuild request).respond answer).run ()).1.toFrame = .ok sent := by
    rw [Message.respond_getLatestBuild]
    exact fits
  have arrives : (Feed.whole sent .closed).bytes = sent ++ [] := rfl
  obtain ⟨-, -, reports, relays⟩ := Codec.call_is_faithful framed replied arrives .empty
  obtain ⟨called, -⟩ := reports outage rfl
  have onward : Exchange (Codec.empty.call request (.whole sent .closed)).2.1
      (.error outage.reported.reported) := by
    rw [called]
    exact exchange_iff.mpr ⟨rfl, relay, fits'⟩
  obtain ⟨-, alike⟩ := relays 1 _ (.onward .direct onward)
  exact ⟨request, _, _, .onward .direct onward, (alike outage rfl).2, rfl, by decide +kernel⟩

end BuildDelivery
