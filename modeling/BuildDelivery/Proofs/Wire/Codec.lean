import BuildDelivery.Proofs.Manifest.Valid
import BuildDelivery.Proofs.Wire.Front
import BuildDelivery.Wire.Codec
import Mathlib.Control.Monad.Basic

/-! Whole conversations are read back. Frames that were written one after another are read one
after another, each as the message that it is the frame of, however their bytes are cut into pieces
and whatever the buffer of the reader held before. -/

set_option autoImplicit false

namespace BuildDelivery

/-- A way to read a message from a feed, with something that is kept from message to message. -/
abbrev Reader (κ : Type) := κ → Feed → Except SystemFault (Except ProtocolFault Message × Feed) × κ

namespace Reader

variable {κ : Type} {read : Reader κ} {messages : List Message} {frames : List Bytes} {feed : Feed}

/-- A reader that keeps nothing. -/
def plain (short : SystemFault) : Reader Unit := fun _ feed => (Message.read short feed, ())

/-- Messages that are read one after another, each of a frame of its own that is taken off the
front of the feed. -/
inductive Reads (read : Reader κ) : κ → Feed → List Message → List Bytes → κ → Feed → Prop where
  | none {kept : κ} {feed : Feed} : Reads read kept feed [] [] kept feed
  | next {kept between last : κ} {feed behind left : Feed} {message : Message} {frame : Bytes}
      {messages : List Message} {frames : List Bytes} :
      read kept feed = (.ok (.ok message, behind), between) →
        feed.bytes = frame ++ behind.bytes →
          Reads read between behind messages frames last left →
            Reads read kept feed (message :: messages) (frame :: frames) last left

/-- Whatever such a reader keeps, it reads what a reader without memory reads. -/
def Forgets (read : Reader κ) (short : SystemFault) : Prop :=
  ∀ kept feed, (read kept feed).1 = Message.read short feed

theorem plain_forgets (short : SystemFault) : (plain short).Forgets short := fun _ _ => rfl

/-- A payload leaves nothing of what the buffer held, as the buffer has its length by then. -/
theorem codec_forgets : Forgets Codec.read .shortRead := by
  intro codec feed
  unfold Codec.read Message.read
  cases Header.read .shortRead feed with
  | error fault => rfl
  | ok found =>
    obtain ⟨judged, behind⟩ := found
    cases judged with
    | error fault => rfl
    | ok header =>
      have size := Codec.length_resize codec.buffer header.length.toNat
      simp only [Codec.fill_eq size]
      cases behind.exactly .shortRead header.length.toNat with
      | error fault => rfl
      | ok taken => rfl

theorem reads_frame {short : SystemFault} (forgets : read.Forgets short) {message : Message}
    {frame rest : Bytes} (framed : message.toFrame = .ok frame)
    (arrives : feed.bytes = frame ++ rest) (kept : κ) :
    ∃ behind between, read kept feed = (.ok (.ok message, behind), between) ∧
      behind.bytes = rest ∧ behind.ending = feed.ending := by
  obtain ⟨behind, found, left, ending⟩ := Message.read_of_frame framed arrives short
  exact ⟨behind, _, Prod.ext ((forgets kept feed).trans found) rfl, left, ending⟩

/-- Frames at the front of a feed are read one after another, and nothing behind them is taken. -/
theorem reads_frames {short : SystemFault} (forgets : read.Forgets short)
    (framed : messages.mapM Message.toFrame = .ok frames)
    {rest : Bytes} (arrives : feed.bytes = frames.flatten ++ rest) (kept : κ) :
    ∃ last left, read.Reads kept feed messages frames last left ∧ left.bytes = rest ∧
      left.ending = feed.ending := by
  induction messages generalizing frames feed kept with
  | nil =>
    cases framed
    exact ⟨kept, feed, .none, arrives, rfl⟩
  | cons message messages step =>
    simp only [List.mapM_cons, bind_eq_ok_iff] at framed
    obtain ⟨frame, first, later, others, same⟩ := framed
    cases same
    rw [List.flatten_cons, List.append_assoc] at arrives
    obtain ⟨behind, between, found, follows, ending⟩ := reads_frame forgets first arrives kept
    obtain ⟨last, left, reads, behindAll, ending'⟩ := step others follows between
    have split := arrives.trans (congrArg _ follows.symm)
    exact ⟨last, left, .next found split reads, behindAll, ending'.trans ending⟩

/-- Where the feed is closed behind the frames, the reader then finds the end of the stream. -/
theorem reads_all {short : SystemFault} (forgets : read.Forgets short)
    (framed : messages.mapM Message.toFrame = .ok frames)
    (arrives : feed.bytes = frames.flatten) (closed : feed.ending = .closed) (kept : κ) :
    ∃ last left, read.Reads kept feed messages frames last left ∧ left.bytes = [] ∧
      (read last left).1 = .error short := by
  rw [← List.append_nil frames.flatten] at arrives
  obtain ⟨last, left, reads, empty, ending⟩ := reads_frames forgets framed arrives kept
  have few : left.bytes.length < 12 := by
    rw [empty]
    exact Nat.zero_lt_succ 11
  have ended := Message.read_of_cutShort short (ending.trans closed) (.inHeader few)
  exact ⟨last, left, reads, empty, (forgets last left).trans ended⟩

/-- Frames that were written one after another are read back as their messages, with the buffer
that a codec kept from before and without one, and the read behind them finds the stream ended. -/
theorem roundTrip_frames
    (framed : messages.mapM Message.toFrame = .ok frames)
    (arrives : feed.bytes = frames.flatten) (closed : feed.ending = .closed) :
    (∀ codec : Codec, ∃ last left, Reads Codec.read codec feed messages frames last left ∧
        left.bytes = [] ∧ (Codec.read last left).1 = .error .shortRead) ∧
      ∃ left, (plain .earlyEnd).Reads () feed messages frames () left ∧
        left.bytes = [] ∧ Message.read .earlyEnd left = .error .earlyEnd := by
  refine ⟨reads_all codec_forgets framed arrives closed, ?_⟩
  obtain ⟨last, left, reads, empty, ended⟩ :=
    reads_all (plain_forgets .earlyEnd) framed arrives closed ()
  exact ⟨left, reads, empty, ended⟩

/-- Messages of every kind. The manifest is not valid, and no manifest has what the delta changes. -/
def assorted : List Message := [
  .getLatestBuild ⟨⟨7⟩, [.linuxX64, .windowsX64], some ⟨[1]⟩⟩,
  .latestBuild ⟨⟨[2]⟩, ⟨0⟩, .manifest ((Manifest.empty 5).setFile ".." [])⟩,
  .latestBuild ⟨⟨[]⟩, ⟨0⟩, .delta ⟨0, ⟨1⟩, ⟨2⟩, [.remove ⟨"..", 4⟩, .add ⟨"..", 0⟩ (.uniform 7)]⟩⟩,
  .error 404 "gone",
  .ping 3,
  .pong 3]

def assortedFrames : List Bytes := assorted.filterMap fun message => message.toFrame.toOption

theorem roundTrip_assorted :
    assorted.mapM Message.toFrame = .ok assortedFrames ∧
      ∃ last left, Reads Codec.read ⟨[1, 2, 3]⟩ (.inPieces 5 assortedFrames.flatten .closed) assorted
          assortedFrames last left ∧
        left.bytes = [] ∧ (Codec.read last left).1 = .error .shortRead := by
  have framed : assorted.mapM Message.toFrame = .ok assortedFrames := by decide +kernel
  have arrives := Feed.bytes_inPieces (Nat.succ_pos 4) assortedFrames.flatten .closed
  exact ⟨framed, (roundTrip_frames framed arrives rfl).1 ⟨[1, 2, 3]⟩⟩

end Reader

end BuildDelivery
