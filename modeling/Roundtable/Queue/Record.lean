import Roundtable.Queue.Basic
import Roundtable.Json.Decoder

/-!
# Messages and statistics as JSON

An item stands under the key `Item`; a sentinel is a name alone. Statistics are a record
of their nine numbers.
-/

namespace Roundtable

/-- The payload as JSON. -/
def Payload.toJson : Payload Json → Json
  | .item v => .object [("Item", v)]
  | .sentinel => .text "Sentinel"

/-- Reads a payload. -/
def Payload.decoder : Json.Decoder (Payload Json) :=
  .choice
    (fun
      | "Item" => .ok fun p v => (Json.Decoder.any p v).map .item
      | "Sentinel" => .ok fun p v => (Json.Decoder.nothing p v).map fun _ => .sentinel
      | _ => .error .mismatch)
    (fun
      | "Sentinel" => .ok .sentinel
      | _ => .error .mismatch)

namespace Envelope

/-- The message as JSON. -/
def toJson (e : Envelope Json) : Json :=
  .object [("topic", .text e.topic), ("payload", e.payload.toJson), ("delivery_id", .nat e.id),
    ("attempt_count", .nat e.attempt)]

/-- Reads a message. -/
def decoder : Json.Decoder (Envelope Json) :=
  Json.Decoder.record ⟨"", .sentinel, 0, 0⟩
    [.required "topic" .text fun x e => { e with topic := x },
      .required "payload" Payload.decoder fun x e => { e with payload := x },
      .required "delivery_id" .nat64 fun x e => { e with id := x },
      .required "attempt_count" .nat32 fun x e => { e with attempt := x }]

end Envelope

namespace TopicStats

/-- The statistics as JSON. -/
def toJson (s : TopicStats) : Json :=
  .object [("published", .nat s.published), ("sentinels_published", .nat s.sentinels),
    ("delivered", .nat s.delivered), ("acked", .nat s.acked), ("nacked", .nat s.nacked),
    ("requeued", .nat s.requeued), ("discarded", .nat s.discarded), ("pending", .nat s.pending),
    ("in_flight", .nat s.inFlight)]

/-- Reads statistics. -/
def decoder : Json.Decoder TopicStats :=
  Json.Decoder.record ⟨.none, 0, 0⟩
    [.required "published" .nat64 fun x s => { s with published := x },
      .required "sentinels_published" .nat64 fun x s => { s with sentinels := x },
      .required "delivered" .nat64 fun x s => { s with delivered := x },
      .required "acked" .nat64 fun x s => { s with acked := x },
      .required "nacked" .nat64 fun x s => { s with nacked := x },
      .required "requeued" .nat64 fun x s => { s with requeued := x },
      .required "discarded" .nat64 fun x s => { s with discarded := x },
      .required "pending" .nat64 fun x s => { s with pending := x },
      .required "in_flight" .nat64 fun x s => { s with inFlight := x }]

end TopicStats

end Roundtable
