import Fristenwaechter.Notifiers.Seven
import Fristenwaechter.Notifiers.Templates

/-!
Owns `BrevoNotifier.send` and `SevenNotifier.send` as far as their outcome goes: the
failures they map to `NotifierError`, the errors they let through and the id they return.
What the HTTP client brings back is given.
-/

namespace Fristenwaechter

/-- What the parts of `httpx.Response` that are read say: the status, the text, and
`resp.json()`, `none` where that raises `ValueError`. -/
structure HttpResponse where
  status : Nat
  text : Str
  json : Option Json

/-- `client.post`: an `httpx.HTTPError` or a response. -/
abbrev Posted := Except Str HttpResponse

section Senders

variable (repr : Json → Str)

/-- Brevo's answer behind the transport. -/
def brevoAnswer (response : HttpResponse) (idempotencyKey : Str) : Delivery :=
  let synthesized := "brevo:".toList ++ idempotencyKey
  if response.status / 100 ≠ 2 then
    .refused ("brevo HTTP ".toList ++ decimal response.status ++ ": ".toList ++
      response.text.take 200)
  else
    match response.json with
    | none => .delivered synthesized
    | some (.obj members) =>
        .delivered (orElse repr (members.lookup "messageId".toList) synthesized)
    -- `.get` of anything else raises `AttributeError`
    | some _ => .crashed

/-- `text.encode("ascii")` does not raise `UnicodeEncodeError`. -/
def isAscii (text : Str) : Bool :=
  text.all fun c => c.toNat < 128

/-- `BrevoNotifier.send`. The client encodes the headers in ASCII before it posts anything;
the settings among them are taken to be ASCII. -/
def brevoSend (baseUrl template : Str) (payload : Payload) (idempotencyKey : Str)
    (posted : Posted) : Delivery :=
  match renderEmail repr template payload baseUrl with
  | none => .crashed
  | some _ =>
      -- `UnicodeEncodeError` is no `httpx.HTTPError`
      if !isAscii idempotencyKey then .crashed
      else
        match posted with
        | .error error => .refused ("brevo transport error: ".toList ++ error)
        | .ok response => brevoAnswer repr response idempotencyKey

/-- `messages[0].get("id")` where there is such a message. -/
def firstMessageId (data : List (Str × Json)) : Option Json :=
  match data.lookup "messages".toList with
  | some (.list (.obj first :: _)) => first.lookup "id".toList
  | _ => none

/-- seven.io's answer behind the transport, with `_parse`. -/
def sevenAnswer (response : HttpResponse) (idempotencyKey : Str) : Delivery :=
  if response.status / 100 ≠ 2 then
    .refused ("seven.io HTTP ".toList ++ decimal response.status ++ ": ".toList ++
      response.text.take 200)
  else
    match response.json with
    | none => .refused ("seven.io non-JSON response: ".toList ++ response.text.take 200)
    | some (.obj data) =>
        if ((data.lookup "success".toList).getD .null).print repr ≠ "100".toList then
          .refused ("seven.io rejected: ".toList ++ response.text.take 200)
        else
          .delivered (orElse repr (firstMessageId data) ("seven:".toList ++ idempotencyKey))
    | some _ => .refused ("seven.io unexpected payload: ".toList ++ response.text.take 200)

/-- `SevenNotifier.send` behind its gate. -/
def sevenSend (gate : SevenGate) (idempotencyKey : Str) (posted : Posted) : Delivery :=
  match gate, posted with
  | .raise, _ => .crashed
  | .skip companyId, _ => .delivered (skippedSentinelPrefix ++ companyId.text)
  | .post, .error error => .refused ("seven.io transport error: ".toList ++ error)
  | .post, .ok response => sevenAnswer repr response idempotencyKey

end Senders

end Fristenwaechter
