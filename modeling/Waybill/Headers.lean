import Waybill.Sequence
import Waybill.Instant
import Waybill.HeaderValue.Encoding

/-! Finished headers: values under names. Ten names are well known. Two of them, the identity and the time of
creation, are reserved for those who finish a message. A well-known header whose value has the wrong shape reads
as absent. -/
namespace Waybill

namespace HeaderName

def id : String := "id"
def timestamp : String := "timestamp"
def correlationId : String := "correlationId"
def sequenceNumber : String := "sequenceNumber"
def sequenceSize : String := "sequenceSize"
def sequenceDetails : String := "sequenceDetails"
def replyChannel : String := "replyChannel"
def errorChannel : String := "errorChannel"
def expirationDate : String := "expirationDate"
def priority : String := "priority"

def reserved : List String := [id, timestamp]

def isReserved (name : String) : Bool := reserved.contains name

end HeaderName

abbrev Headers := NameMap HeaderValue

namespace Headers

def messageId (h : Headers) : Option MessageId := (h.get? HeaderName.id).bind HeaderValue.id?

def int? (h : Headers) (name : String) : Option Int64 := (h.get? name).bind HeaderValue.int?

def timestamp (h : Headers) : Option Int64 := h.int? HeaderName.timestamp

def createdAt (h : Headers) : Option Instant := h.timestamp.bind Instant.ofMillis?

def correlationId (h : Headers) : Option HeaderValue := h.get? HeaderName.correlationId

def sequenceNumber (h : Headers) : Option Int64 := h.int? HeaderName.sequenceNumber

def sequenceSize (h : Headers) : Option Int64 := h.int? HeaderName.sequenceSize

def sequenceDetails (h : Headers) : Except SequenceError (List Frame) :=
  match h.get? HeaderName.sequenceDetails with
  | some stack => Sequence.frames stack
  | none => .ok []

def priority (h : Headers) : Option Int64 := h.int? HeaderName.priority

def expirationDate (h : Headers) : Option Int64 := h.int? HeaderName.expirationDate

def expiresAt (h : Headers) : Option Instant := h.expirationDate.bind Instant.ofMillis?

def replyChannel (h : Headers) : Option HeaderValue := h.get? HeaderName.replyChannel

def errorChannel (h : Headers) : Option HeaderValue := h.get? HeaderName.errorChannel

def membersDoc? : List (String × HeaderValue) → Option (List (String × Doc))
  | [] => some []
  | (name, v) :: more => do return (name, ← v.doc?) :: (← membersDoc? more)

def doc? (h : Headers) : Option Doc := (membersDoc? h.entries).map .object

def text? (h : Headers) : Option String := h.doc?.map Doc.compact

def read : Reader Headers := Read.map HeaderValue.read

end Headers
end Waybill
