import Waybill.Event

/-! Edits of headers under construction, and what an area that stages them must offer. An edit is data, so that
a run of edits is a list. -/
namespace Waybill

inductive Edit
  | set (name : String) (v : HeaderValue)
  | setIfAbsent (name : String) (v : HeaderValue)
  | remove (name : String)
  | removeMatching (patterns : List String)
  /-- Writes entry by entry, over what is there or only where nothing is. -/
  | copy (entries : List (String × HeaderValue)) (overwrite : Bool)

namespace Edit

def setCorrelationId (v : HeaderValue) : Edit := .set HeaderName.correlationId v
def setSequenceNumber (n : Int64) : Edit := .set HeaderName.sequenceNumber (.int n)
def setSequenceSize (n : Int64) : Edit := .set HeaderName.sequenceSize (.int n)
def setPriority (n : Int64) : Edit := .set HeaderName.priority (.int n)
def setReplyChannel (c : Channel) : Edit := .set HeaderName.replyChannel (.channel c)
def setReplyChannelName (name : String) : Edit := .set HeaderName.replyChannel (.str name)
def setErrorChannel (c : Channel) : Edit := .set HeaderName.errorChannel (.channel c)
def setErrorChannelName (name : String) : Edit := .set HeaderName.errorChannel (.str name)
def setExpirationDate (millis : Int64) : Edit := .set HeaderName.expirationDate (.int millis)

def setExpirationDateAt (t : Option Instant) : Edit :=
  .set HeaderName.expirationDate (asHeader (t.map Instant.millis))

end Edit

structure Stamp where
  id : MessageId
  timestamp : Int64

/-- Stamps in the order in which they are handed out, and how many have been. -/
structure Stamps where
  stampAt : Nat → Stamp
  drawn : Nat

namespace Stamps

def next (s : Stamps) : Stamp := s.stampAt s.drawn

def rest (s : Stamps) : Stamps := { s with drawn := s.drawn + 1 }

def counting (now : Int64) (start : Nat) : Stamps :=
  ⟨fun n => ⟨MessageId.generated now.toInt (start + n), now⟩, 0⟩

end Stamps

class Staging (σ : Type) where
  get? : σ → String → Option HeaderValue
  edit : σ → Edit → σ
  events : σ → Edit → List Event
  isModified : σ → Bool
  materialize : σ → Stamps → Headers × Stamps

end Waybill
