import Waybill.Order.Pipeline
import Waybill.Proofs.Headers.RoundTrip
import Waybill.Proofs.Order.Children

/-! The message that an order starts with. Its headers are the four that it is opened with and the two of its stamp,
so that it has a written form and is a parent with nothing on its stack. -/
namespace Waybill

namespace Pipeline

def openHeaders (o : Order) : Headers :=
  NameMap.ofList [(HeaderName.correlationId, .str o.orderId), (HeaderName.sequenceNumber, .int 1),
    (HeaderName.sequenceSize, .int 1), (HeaderName.replyChannel, .str repliesChannel)]

theorem get?_openHeaders (o : Order) (name : String) :
    (openHeaders o).get? name =
      if HeaderName.replyChannel = name then some (.str repliesChannel)
      else if HeaderName.sequenceSize = name then some (.int 1)
      else if HeaderName.sequenceNumber = name then some (.int 1)
      else if HeaderName.correlationId = name then some (.str o.orderId)
      else none := by
  simp only [openHeaders, NameMap.ofList, List.foldl_cons, List.foldl_nil, NameMap.get?_insert, NameMap.get?_empty]

theorem header_opening (o : Order) (name : String) : (opening o).header name = (openHeaders o).get? name := by
  let empty : WorkBuilder := .withPayload (.order o.items)
  have none (other : String) : empty.header other = none := rfl
  change ((((empty.edit (.setCorrelationId (.str o.orderId))).edit (.setSequenceNumber 1)).edit
    (.setSequenceSize 1)).edit (.setReplyChannelName repliesChannel)).header name = _
  rw [Edit.setReplyChannelName, Builder.header_set _ (by decide), Store.written_plain _ rfl rfl,
    Builder.header_setSequenceSize, Builder.header_setSequenceNumber, Builder.header_setCorrelationId,
    Store.written_plain _ rfl rfl, none, get?_openHeaders]

def opened (o : Order) (stamps : Stamps) : Envelope := (opening o).made stamps.next

theorem payload_opened (o : Order) (stamps : Stamps) : (opened o stamps).payload = .order o.items := rfl

theorem build_opening (o : Order) (stamps : Stamps) :
    (opening o).build stamps = (.made (opened o stamps), stamps.rest) :=
  Builder.build_of_modified rfl stamps

theorem header_opened (o : Order) (stamps : Stamps) {name : String} (free : HeaderName.isReserved name = false) :
    (opened o stamps).headers.get? name = (openHeaders o).get? name :=
  (Builder.made_header _ _ free).trans (header_opening o name)

def parent (o : Order) (stamps : Stamps) : Parent where
  message := opened o stamps
  id := stamps.next.id
  frame := ⟨.str o.orderId, .int 1, .int 1⟩
  stack := []
  identified := Builder.messageId_made (opening o) stamps.next
  correlation := by rw [header_opened o stamps (by decide), get?_openHeaders]; rfl
  number := by rw [header_opened o stamps (by decide), get?_openHeaders]; rfl
  size := by rw [header_opened o stamps (by decide), get?_openHeaders]; rfl
  details := by rw [header_opened o stamps (by decide), get?_openHeaders]; rfl
  correlationLive := rfl
  numberLive := rfl
  sizeLive := rfl

theorem isSome_text?_opened (o : Order) (stamps : Stamps) : (opened o stamps).headers.text?.isSome = true := by
  refine (Headers.isSome_text?_iff _).2 fun name v found => ?_
  rw [opened, Builder.get?_made, header_opening, get?_openHeaders] at found
  repeat' split at found
  all_goals cases found
  all_goals rfl

end Pipeline
end Waybill
