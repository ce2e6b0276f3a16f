import Freeflow.Flowmgr.Correctness.Handlers
import Freeflow.Flowpath.Manage

/-!
# `Stack.Correctness.Requests` — what `flowmgr` sends to the switch

Whatever a client sends, each message for the switch is a whole request of one of the five kinds that `fp_on_request`
has a function for. `Formed` says so of one message, and the handlers write nothing else (`request_writes`).
-/

namespace Freeflow
namespace Stack

open Json (Text Value)
open Flowmgr (Act Event Link Effect State Turn Pass IoHandler Answers)
open Flowpath (messageLen stringMaxLen dataOffset fpRequest reqType reqKind encodeRequest makeRequest fillArguments)
open Traced (Writes)

/-- **A whole request of a kind that is handled.** -/
structure Formed (msg : List UInt8) : Prop where
  length_eq : msg.length = messageLen
  type_eq : reqType msg = fpRequest
  kind_mem : reqKind msg ∈ [Flowpath.dataplaneAdd, Flowpath.dataplaneDel, Flowpath.portAdd, Flowpath.portDel,
    Flowpath.portList]

/-- An event is an error message, or a request that is formed. -/
def FormedEvent : Event → Prop
  | .error _ => True
  | .request msg => Formed msg

/-! ## Encoding -/

/-- A copy into the data of a request leaves its length and its header as they are. -/
theorem copyTo_header {buf buf' xs : List UInt8} {i : Nat} (hi : dataOffset ≤ i) (h : copyTo buf i xs = .ok buf') :
    buf'.length = buf.length ∧ buf'.take dataOffset = buf.take dataOffset := by
  unfold copyTo at h
  split_ifs at h with hfit
  cases h
  constructor
  · simp only [List.length_append, List.length_take, List.length_drop]
    omega
  · have hle : dataOffset ≤ (buf.take i).length := by
      rw [List.length_take]
      omega
    rw [List.append_assoc, List.take_append_of_le_length hle, List.take_take, min_eq_left hi]

theorem fillArguments_header : ∀ (args : List (Option (List UInt8))) (i : Nat) (buf buf' : List UInt8),
    dataOffset ≤ i → fillArguments i args buf = .ok buf' →
      buf'.length = buf.length ∧ buf'.take dataOffset = buf.take dataOffset
  | [], _, _, _, _, h => by
      cases h
      exact ⟨rfl, rfl⟩
  | none :: _, _, _, _, _, h => by cases h
  | some text :: args, i, buf, buf', hi, h => by
      obtain ⟨buf₁, hcopy, h⟩ := bind_eq_ok h
      obtain ⟨hlen, htake⟩ := copyTo_header hi hcopy
      obtain ⟨hlen', htake'⟩ := fillArguments_header args (i + stringMaxLen) buf₁ buf' (by omega) h
      exact ⟨hlen'.trans hlen, htake'.trans htake⟩

/-- A request that was encoded is whole, and of its kind. -/
theorem encodeRequest_header {kind : UInt8} {args : List (Option (List UInt8))} {msg : List UInt8}
    (h : encodeRequest kind args = .ok msg) : msg.length = messageLen ∧ reqType msg = fpRequest ∧ reqKind msg = kind := by
  obtain ⟨hlen, htake⟩ := fillArguments_header args dataOffset _ msg (by simp) h
  have hget : ∀ i < dataOffset, msg.getD i 0 = (makeRequest kind).getD i 0 := by
    intro i hi
    simp only [List.getD_eq_getElem?_getD]
    rw [← List.getElem?_take_of_lt hi, htake, List.getElem?_take_of_lt hi]
  refine ⟨by rw [hlen, Flowpath.length_makeRequest], ?_, ?_⟩
  · rw [reqType, hget 0 (by simp [dataOffset]), Flowpath.makeRequest_eq]
    rfl
  · rw [reqKind, hget 1 (by simp [dataOffset]), Flowpath.makeRequest_eq]
    rfl

/-! ## The handlers -/

variable {hash : Text → Nat} {sw : Link} {map : Json.Map}

/-- Undefined behaviour writes nothing. -/
theorem stop_writes {α : Type} (f : Fault) : Writes FormedEvent (throw f : Act α) := Writes.ofChecked (.error f)

theorem sendError_writes (what : String) : Writes FormedEvent (Flowmgr.sendError what) :=
  Writes.note (e := Event.error what) trivial

theorem requireName_writes (what : String) : Writes FormedEvent (Flowmgr.requireName hash map what) := by
  unfold Flowmgr.requireName
  split_ifs
  · exact sendError_writes what
  · exact Writes.pure ()

/-- A message that is handed to the switch channel was encoded. -/
theorem forward_writes {kind : UInt8} (hkind : kind ∈ [Flowpath.dataplaneAdd, Flowpath.dataplaneDel, Flowpath.portAdd,
    Flowpath.portDel, Flowpath.portList]) (args : List String) :
    Writes FormedEvent (Flowmgr.forward hash sw map kind args) := by
  show Writes FormedEvent (Traced.ofChecked _ >>= fun msg => Flowmgr.onRequest sw msg)
  refine Writes.ofChecked_bind (fun msg henc => ?_)
  obtain ⟨hlen, htype, hmsg⟩ := encodeRequest_header henc
  have hformed : FormedEvent (.request msg) := ⟨hlen, htype, hmsg ▸ hkind⟩
  cases sw with
  | absent => exact stop_writes .nullDeref
  | refusing => exact Writes.pure false
  | accepting => exact fun es => ⟨[.request msg], rfl, by simpa using hformed⟩

/-- A refusal of the switch channel is reported. -/
theorem report_writes (res : Bool) : Writes FormedEvent (if res then pure () else Flowmgr.sendError "request failed") := by
  split_ifs
  · exact Writes.pure ()
  · exact sendError_writes _

theorem dataplaneAdd_writes : Writes FormedEvent (Flowmgr.Dataplane.addRequest hash sw map) := by
  unfold Flowmgr.Dataplane.addRequest
  refine (requireName_writes _).bind (fun _ => ?_)
  split_ifs
  · exact sendError_writes _
  · exact (forward_writes (by simp) _).bind report_writes

theorem dataplaneDel_writes : Writes FormedEvent (Flowmgr.Dataplane.delRequest hash sw map) := by
  unfold Flowmgr.Dataplane.delRequest
  exact (requireName_writes _).bind (fun _ => (forward_writes (by simp) _).bind (fun _ => Writes.pure ()))

theorem portRequest_writes {kind : UInt8} (hkind : kind ∈ [Flowpath.dataplaneAdd, Flowpath.dataplaneDel,
    Flowpath.portAdd, Flowpath.portDel, Flowpath.portList]) (args : List (String × String)) :
    Writes FormedEvent (Flowmgr.Port.portRequest hash sw map kind args) := by
  have hchecks : ∀ args : List (String × String),
      Writes FormedEvent (args.forM (fun arg => Flowmgr.requireName hash map arg.2)) := by
    intro args
    induction args with
    | nil => exact Writes.pure ()
    | cons arg args ih => exact (requireName_writes arg.2).bind (fun _ => ih)
  unfold Flowmgr.Port.portRequest
  exact (hchecks args).bind (fun _ => (forward_writes hkind _).bind report_writes)

/-- A table whose handlers all write formed events. -/
theorem lookup_writes {reqs : List (Text × Act Unit)} {name : Text} {handler : Act Unit}
    (hall : ∀ r ∈ reqs, Writes FormedEvent r.2) (h : reqs.lookup name = some handler) : Writes FormedEvent handler := by
  obtain ⟨front, back, heq, -⟩ := List.lookup_eq_some_iff.mp h
  exact hall (name, handler) (by simp [heq])

theorem commandRequest_writes (missing unknown : String) {reqs : List (Text × Act Unit)}
    (hall : ∀ r ∈ reqs, Writes FormedEvent r.2) :
    Writes FormedEvent (Flowmgr.commandRequest hash map missing unknown reqs) := by
  unfold Flowmgr.commandRequest
  split
  · exact sendError_writes _
  · split
    · exact sendError_writes _
    · next hlookup => exact lookup_writes hall hlookup

theorem dataplaneRequest_writes : Writes FormedEvent (Flowmgr.dataplaneRequest hash sw map) := by
  apply commandRequest_writes
  simp only [Flowmgr.Dataplane.reqs, List.forall_mem_cons]
  exact ⟨dataplaneAdd_writes, dataplaneDel_writes, Writes.pure (), Writes.pure (), Writes.pure (), Writes.pure (), by simp⟩

theorem portRequest_dispatch_writes : Writes FormedEvent (Flowmgr.portRequest hash sw map) := by
  apply commandRequest_writes
  simp only [Flowmgr.Port.reqs, List.forall_mem_cons]
  exact ⟨portRequest_writes (by simp) _, portRequest_writes (by simp) _, portRequest_writes (by simp) _, by simp⟩

theorem processMap_writes : Writes FormedEvent (Flowmgr.processMap hash sw map) := by
  unfold Flowmgr.processMap Flowmgr.processTarget
  split
  · split
    · exact sendError_writes _
    · next hlookup =>
        refine lookup_writes ?_ hlookup
        simp only [Flowmgr.dispatch, List.forall_mem_cons]
        exact ⟨dataplaneRequest_writes, portRequest_dispatch_writes, by simp⟩
  · exact sendError_writes _

/-- **Whatever the client sends, the requests that come of it are formed.** -/
theorem request_writes (hash : Text → Nat) (sw : Link) (buf : Text) :
    Writes FormedEvent (Flowmgr.request hash sw buf) := by
  unfold Flowmgr.request
  split
  · refine Writes.bind ?_ (fun _ => Writes.pure true)
    unfold Flowmgr.process
    split
    · exact processMap_writes
    · exact sendError_writes _
  · exact (sendError_writes _).bind (fun _ => stop_writes _)
  · exact stop_writes _
  · exact stop_writes _

end Stack
end Freeflow
