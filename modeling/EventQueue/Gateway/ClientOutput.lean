import EventQueue.Gateway.ClientInput
import EventQueue.Lib.JsonText

/-!
# What the gateway writes to its clients

The texts of the messages in `gateway/src/wsServer.js`. The body of an event is parsed, and kept as
a string when it is no JSON, and then it is written again as a part of the envelope; so is every
other message with its fields.
-/

namespace EventQueue.Gateway

open JsString (ofString ofUtf8 toUtf8)

/-- The body of an event, as it stands in the envelope. -/
def parsedBody (body : Bytes) : Json := (Json.parse (ofUtf8 body)).getD (.string (ofUtf8 body))

/-- The object that is written. -/
def WsMessage.json : WsMessage → Json
  | .event topic msgId body => .object [(ofString "type", .string (ofString "event")),
      (ofString "topic", .string topic), (ofString "msgId", .string (JsNumber.digits msgId.toNat)),
      (ofString "body", parsedBody body)]
  | .subscribed topic group => .object [(ofString "type", .string (ofString "subscribed")),
      (ofString "topic", .string topic), (ofString "group", .string group)]
  | .status s => .object [(ofString "type", .string (ofString "status")),
      (ofString "status", .string s)]
  | .error message => .object [(ofString "type", .string (ofString "error")),
      (ofString "message", .string message)]

/-- The bytes that a client gets. -/
def WsMessage.raw (m : WsMessage) : Bytes := toUtf8 m.json.stringify

end EventQueue.Gateway
