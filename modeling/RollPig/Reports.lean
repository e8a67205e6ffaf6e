/-
Daily-report deliveries as a transition system.

No row lock stands between the read of a row and its UPDATE, so a request is two kinds
of steps: one that reads, and for each row it read one that writes.  Any number of other
steps may come in between.  A request reads the clock once, with its rows.
-/
import RollPig.Transition
import RollPig.Routers.DailyReports

namespace RollPig

/-- A claim that has read a row and not written it yet. -/
structure ClaimFlight where
  now : Time
  instanceId : String
  deliveryBotId : String
  row : DailyReportDelivery
deriving DecidableEq

/-- A transition that found its token in the row it read. -/
structure TransitionFlight where
  now : Time
  req : DailyReportTransitionRequest
  row : DailyReportDelivery
  named : row.key = (req.dateStr, req.groupId)
  held : row.claimToken = some req.claimToken
deriving DecidableEq

inductive ReportFlight
  | claim (flight : ClaimFlight)
  | transition (flight : TransitionFlight)
deriving DecidableEq

/-- The row as it was read. -/
def ReportFlight.row : ReportFlight → DailyReportDelivery
  | .claim flight => flight.row
  | .transition flight => flight.row

/-- The deliveries, the requests between their read and their write, and every token that
was issued. -/
structure Reports where
  deliveries : List DailyReportDelivery := []
  flights : List ReportFlight := []
  issued : List String := []

/-- The halves of the two requests; the write of a claim draws a token. -/
inductive ReportAction
  | claimRead (now : Time) (req : DailyReportClaimRequest)
  | claimWrite (flight : ClaimFlight) (token : String)
  | transitionRead (now : Time) (req : DailyReportTransitionRequest)
  | transitionWrite (flight : TransitionFlight)

/-- What the half answers: a claim its items row by row, a transition at its end. -/
inductive ReportResponse
  | silent
  | item (item : Option DailyReportClaimItem)
  | transition (response : DailyReportTransitionResponse)

structure ReportEvent where
  action : ReportAction
  response : ReportResponse

/-- The clock reading of the request. -/
def ReportEvent.now (event : ReportEvent) : Time :=
  match event.action with
  | .claimRead now _ => now
  | .claimWrite flight _ => flight.now
  | .transitionRead now _ => now
  | .transitionWrite flight => flight.now

/-- The flights of a claim that read these rows. -/
def claimFlights (now : Time) (req : DailyReportClaimRequest) (rows : List DailyReportDelivery) :
    List ReportFlight :=
  rows.map fun row =>
    .claim
      { now
        instanceId := req.instanceId
        deliveryBotId := clip 64 ((req.candidate? row.groupId).getD "")
        row }

theorem transitionRead_spec {req : DailyReportTransitionRequest}
    {table : List DailyReportDelivery} {row : DailyReportDelivery}
    (h : transitionRead req table = some row) :
    row ∈ table ∧ row.key = (req.dateStr, req.groupId) ∧ row.claimToken = some req.claimToken := by
  obtain ⟨hfind, htoken⟩ := Option.filter_eq_some_iff.mp h
  obtain ⟨hrow, hkey⟩ := Tables.lookup_some hfind
  exact ⟨hrow, hkey, by simpa using htoken⟩

/-- Execute one half of a request. -/
def ReportAction.perform (s : Reports) : ReportAction → ReportResponse × Reports
  | .claimRead now req =>
      let table := openDeliveries req s.deliveries
      (.silent,
        { s with
          deliveries := table
          flights := s.flights ++ claimFlights now req (candidateRows req table) })
  | .claimWrite flight token =>
      let claim := claimDelivery flight.now flight.instanceId flight.deliveryBotId token flight.row
        s.deliveries
      (.item claim.item,
        { deliveries := claim.table
          flights := s.flights.erase (.claim flight)
          issued := token :: s.issued })
  | .transitionRead now req =>
      match h : RollPig.transitionRead req s.deliveries with
      | none => (.transition { ok := false }, s)
      | some row =>
          (.silent,
            { s with
              flights := s.flights ++
                [.transition
                  { now, req, row
                    named := (transitionRead_spec h).2.1
                    held := (transitionRead_spec h).2.2 }] })
  | .transitionWrite flight =>
      let (response, table) := RollPig.transitionWrite flight.now flight.req flight.row s.deliveries
      (.transition response,
        { s with deliveries := table, flights := s.flights.erase (.transition flight) })

/-- A write belongs to a request in flight, and `uuid4` never repeats itself. -/
def ReportAction.Enabled (s : Reports) : ReportAction → Prop
  | .claimWrite flight token => .claim flight ∈ s.flights ∧ token ∉ s.issued
  | .transitionWrite flight => .transition flight ∈ s.flights
  | _ => True

instance (s : Reports) (action : ReportAction) : Decidable (action.Enabled s) := by
  unfold ReportAction.Enabled
  split <;> infer_instance

/-- The deliveries, from an empty table on. -/
def reports : Transition.System Reports ReportEvent where
  init s := s = {}
  step s event s' :=
    event.action.Enabled s ∧ event.response = (event.action.perform s).1 ∧
      s' = (event.action.perform s).2

end RollPig
