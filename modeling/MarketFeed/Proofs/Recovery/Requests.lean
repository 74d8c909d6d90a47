import MarketFeed.Proofs.Recovery.Accounting

/-! The rerequests of a recovery, in the order in which they are handed to the link. Each starts
where the messages counted so far end and asks for what the plan still wants, so that none is empty,
none leaves the plan and none comes twice. The server is free in what it answers. -/
namespace MarketFeed

def FeedEvent.request? : FeedEvent → Option Rerequest
  | .chunkRequested session start count => some ⟨session, start, count⟩
  | _ => none

def requested (events : List FeedEvent) : List Rerequest := events.filterMap FeedEvent.request?

/- The datagrams handed to a link that was fresh. One that the link refused is the last. -/
def RecoveryRun.handed (run : RecoveryRun) : List Bytes := run.link.sent ++ run.refused.toList

inductive Offered : RecoveryResult → RerequestLink → List Bytes → Prop where
  | sent {result link} (unrefused : ∀ fault, result ≠ .failed (.send fault)) :
      Offered result link link.sent
  | refused {link datagram fault} (send : link.send datagram = .error fault) :
      Offered (.failed (.send fault)) link (link.sent ++ [datagram])

structure Asks (plan : RecoveryPlan) (session : Session) (received : Nat) (r : Rerequest) :
    Prop where
  session : r.session = session
  start : r.start.toNat = min 0xFFFFFFFFFFFFFFFF (plan.start.toNat + received)
  count : r.count.toNat =
    if plan.total = 0 then (chunkOrDefault plan.chunkSize).toNat
    else min (chunkOrDefault plan.chunkSize).toNat (plan.total - received)
  something : 1 ≤ r.count.toNat
  inside : plan.total ≠ 0 → plan.start.toNat + plan.total ≤ 0xFFFFFFFFFFFFFFFF →
    plan.start.toNat ≤ r.start.toNat ∧
      r.start.toNat + r.count.toNat ≤ plan.start.toNat + plan.total

theorem Rerequest.readLength {datagram : Bytes} {r : Rerequest}
    (ok : read datagram = .ok r) : datagram.length = 20 := by
  unfold read at ok
  split at ok
  · assumption
  · contradiction

namespace RerequestLink

theorem sendLogs {link sent : RerequestLink} {datagram : Bytes}
    (send : link.send datagram = .ok sent) : sent.sent = link.sent ++ [datagram] := by
  unfold RerequestLink.send at send
  split at send
  · split at send
    · contradiction
    · cases send
      rfl
  · split at send
    · contradiction
    · split at send
      · contradiction
      · cases send
        rfl

theorem inboxLogs (link : RerequestLink) (rest : List Reply) :
    (link.withInbox rest).sent = link.sent := by
  unfold withInbox
  split <;> rfl

end RerequestLink

namespace RecoveryState

variable {s : RecoveryState} {link sent : RerequestLink} {session : Session} {size : UInt16}

theorem linkLogs (send : link.send (s.datagram session size) = .ok sent) :
    (s.linkBehind size sent).sent = link.sent ++ [s.datagram session size] := by
  rw [linkBehind, RerequestLink.inboxLogs, RerequestLink.sendLogs send]

theorem roundRequests (s : RecoveryState) (session : Session) (size : UInt16)
    (sent : RerequestLink) (later : List FeedEvent) :
    requested (s.roundEvents session size sent ++ later) =
      s.rerequest session size :: requested later := by
  rw [requested, List.filterMap_append, roundPicks (fun e told => ?_) s session size sent]
  · rfl
  · cases e with
    | chunkRequested => contradiction
    | _ => rfl

theorem closingRequests (s : RecoveryState) (outcome : RecoveryOutcome) :
    requested (s.closing outcome) = [] := by
  cases outcome <;> rfl

theorem requestAsks {plan : RecoveryPlan} {cap : Nat} (t : Tracks plan.start plan.total cap s)
    (u : Underway plan.total s) (session : Session) :
    Asks plan session s.pipeline.processed
      (s.rerequest session (chunkOrDefault plan.chunkSize)) where
  session := rfl
  start := t.sequence
  count := requestCount t _
  something := (requestWanted t u (chunkPositive plan.chunkSize)).1
  inside := by
    intro wanted fits
    have start := t.sequence
    have wanting := u.wanting wanted
    have within := (requestWanted t u (chunkPositive plan.chunkSize)).2 wanted
    simp only [rerequest, request] at within ⊢
    omega

end RecoveryState

theorem recoversHand {session size s link rounds run}
    (r : Recovers session size s link rounds run) :
    run.handed = link.sent ++ (requested run.events).map Rerequest.write ∧
      Offered run.result run.link run.handed := by
  induction r with
  | refused send => exact ⟨rfl, .refused send⟩
  | @last s link sent outcome send ends =>
    have logged : (s.linkBehind size sent).sent = link.sent ++ [s.datagram session size] :=
      RecoveryState.linkLogs send
    have unrefused : (s.linkBehind size sent).sent ++ Option.toList none =
        (s.linkBehind size sent).sent := List.append_nil _
    dsimp only [RecoveryRun.handed]
    rw [unrefused]
    refine ⟨?_, .sent fun fault failed => by contradiction⟩
    rw [logged, s.roundRequests, RecoveryState.closingRequests]
    rfl
  | @more s link sent rounds run send goes later ih =>
    obtain ⟨asked, offered⟩ := ih
    refine ⟨?_, offered⟩
    rw [s.roundRequests, List.map_cons, List.append_cons]
    rwa [RecoveryState.linkLogs send] at asked

theorem recoversAsk {plan : RecoveryPlan} {cap : Nat} {session s link rounds run}
    (r : Recovers session (chunkOrDefault plan.chunkSize) s link rounds run)
    (t : Tracks plan.start plan.total cap s) (u : Underway plan.total s) {k : Nat} {q : Rerequest}
    (found : (requested run.events)[k]? = some q) :
    Asks plan session (s.pipeline.processed + ((receivedCounts run.events).take k).sum) q := by
  induction r generalizing k with
  | @refused s link fault send =>
    cases k with
    | zero =>
      cases Option.some.inj found
      exact RecoveryState.requestAsks t u session
    | succ k => contradiction
  | @last s link sent outcome send ends =>
    rw [s.roundRequests, RecoveryState.closingRequests] at found
    cases k with
    | zero =>
      cases Option.some.inj found
      exact RecoveryState.requestAsks t u session
    | succ k => contradiction
  | @more s link sent rounds run send goes later ih =>
    rw [s.roundRequests] at found
    cases k with
    | zero =>
      cases Option.some.inj found
      exact RecoveryState.requestAsks t u session
    | succ k =>
      have next := ih (RecoveryState.nextTracks t _ sent)
        (RecoveryState.nextUnderway t u (chunkPositive plan.chunkSize) goes) found
      rw [s.nextCount, Nat.add_assoc] at next
      rwa [s.roundCounts, List.take_succ_cons, List.sum_cons]

theorem recoversMove {session size s link rounds run}
    (r : Recovers session size s link rounds run) {k : Nat} {q : Rerequest}
    (found : (requested run.events)[k + 1]? = some q) :
    ∃ n, (receivedCounts run.events)[k]? = some n ∧ 0 < n := by
  induction r generalizing k with
  | refused send => contradiction
  | @last s link sent outcome send ends =>
    rw [s.roundRequests, RecoveryState.closingRequests] at found
    contradiction
  | @more s link sent rounds run send goes later ih =>
    rw [s.roundRequests] at found
    rw [s.roundCounts]
    cases k with
    | zero => exact ⟨_, rfl, RecoveryState.receivedMore goes⟩
    | succ k => exact ih found

theorem Asks.moves {plan : RecoveryPlan} {session : Session} {received more : Nat} {a b : Rerequest}
    (here : Asks plan session received a) (there : Asks plan session (received + more) b)
    (positive : 0 < more) (room : a.start.toNat < 0xFFFFFFFFFFFFFFFF) : a.start < b.start := by
  have first := here.start
  have second := there.start
  rw [UInt64.lt_iff_toNat_lt]
  omega

structure Walks (plan : RecoveryPlan) (session : Session) (events : List FeedEvent) (k : Nat)
    (datagram : Bytes) (r : Rerequest) : Prop where
  size : datagram.length = 20
  read : Rerequest.read datagram = .ok r
  told : (requested events)[k]? = some r
  asks : Asks plan session ((receivedCounts events).take k).sum r
  moves : r.start.toNat < 0xFFFFFFFFFFFFFFFF →
    ∀ next, (requested events)[k + 1]? = some next → r.start < next.start

theorem recoversWalk {plan : RecoveryPlan} {table : Table} {filter : Option TypeFilter} {cap : Nat}
    {session : Session} {link : RerequestLink} {rounds : List Round} {run : RecoveryRun}
    (r : Recovers session (chunkOrDefault plan.chunkSize)
      ⟨.fresh table filter cap, .start plan.start plan.total, 0⟩ link rounds run)
    {k : Nat} {q : Rerequest} (found : (requested run.events)[k]? = some q) :
    Walks plan session run.events k q.write q := by
  have t := startTracks table filter cap plan.start plan.total
  have u := startUnderway table filter cap plan.start plan.total
  have asks := recoversAsk r t u found
  simp only [Pipeline.fresh, Nat.zero_add] at asks
  refine ⟨Rerequest.readLength q.readWritten, q.readWritten, found, asks, ?_⟩
  intro room next second
  obtain ⟨n, received, positive⟩ := recoversMove r second
  have more := recoversAsk r t u second
  simp only [Pipeline.fresh, Nat.zero_add] at more
  rw [List.take_add_one, received, List.sum_append] at more
  exact asks.moves more (by simpa using positive) room

theorem recoverHands (plan : RecoveryPlan) (pipeline : Pipeline) (live : List Reception)
    (server : Server) :
    let run := recover plan pipeline live (.fresh server)
    run.handed = (requested run.events).map Rerequest.write ∧
      Offered run.result run.link run.handed := by
  intro run
  cases heard : firstHeader? live with
  | none =>
    obtain ⟨result, silent, ended⟩ := recoverUnheard heard plan pipeline (.fresh server)
    have whole : run = ⟨[], result, .fresh server, none⟩ := silent
    rw [whole]
    refine ⟨rfl, .sent fun fault failed => ?_⟩
    rcases ended with ⟨_, rfl⟩ | ⟨limit, _, rfl⟩ <;> cases failed
  | some h =>
    obtain ⟨rounds, rest, r, heardRun⟩ := recoverHeard heard plan pipeline (.fresh server)
    have whole : run =
        { rest with events := .sessionAcquired h.session h.sequence :: rest.events } := heardRun
    rw [whole]
    exact recoversHand r

theorem requestsWalkPlan (plan : RecoveryPlan) (table : Table) (filter : Option TypeFilter)
    (cap : Nat) (live : List Reception) (server : Server) :
    let link := RerequestLink.fresh server
    let run := recover plan (.fresh table filter cap) live link
    let datagrams := run.handed
    Offered run.result run.link datagrams ∧
    datagrams.length = (requested run.events).length ∧
    ∀ k datagram, datagrams[k]? = some datagram →
      ∃ h r, firstHeader? live = some h ∧ Walks plan h.session run.events k datagram r := by
  intro link run datagrams
  obtain ⟨all, offered⟩ := recoverHands plan (.fresh table filter cap) live server
  have whole : datagrams = (requested run.events).map Rerequest.write := all
  refine ⟨offered, by rw [whole, List.length_map], ?_⟩
  intro k datagram found
  rw [whole, List.getElem?_map] at found
  obtain ⟨q, here, rfl⟩ := Option.map_eq_some_iff.mp found
  cases heard : firstHeader? live with
  | none =>
    obtain ⟨result, silent, _⟩ := recoverUnheard heard plan (.fresh table filter cap) link
    have nothing : run = ⟨[], result, link, none⟩ := silent
    rw [nothing] at here
    contradiction
  | some h =>
    obtain ⟨rounds, rest, r, heardRun⟩ := recoverHeard heard plan (.fresh table filter cap) link
    have behind : run =
        { rest with events := .sessionAcquired h.session h.sequence :: rest.events } := heardRun
    -- the event of the session is neither a request nor the end of a chunk
    rw [behind] at here ⊢
    obtain ⟨size, read, told, asks, moves⟩ := recoversWalk r here
    exact ⟨h, q, rfl, size, read, told, asks, moves⟩

/- The first answer brings one message more than was asked for; the link refuses the second request,
which starts behind all three. -/
theorem requestsWalkPlanRefused :
    let session : Session := ⟨List.replicate 10 0x41, rfl⟩
    let plan : RecoveryPlan := ⟨5, 7, 2, none⟩
    let live : List Reception := [.failure, .datagram (Header.write ⟨session, 90, 0⟩)]
    let link := RerequestLink.fresh (.script
      [[.timeout, .datagram (Header.write ⟨session, 5, 3⟩ ++ [0, 1, 0x41, 0, 0, 0, 0])]]
      (some (1, .refused)))
    let run := recover plan (.fresh .empty none 0) live link
    let datagrams := run.handed
    let datagram := Rerequest.write ⟨session, 8, 2⟩
    datagrams[1]? = some datagram ∧ run.link.send datagram = .error .refused ∧
      ∃ h r, firstHeader? live = some h ∧ Walks plan h.session run.events 1 datagram r := by
  refine ⟨?_, ?_, ?_⟩
  · cbv
  · cbv
  · exact (requestsWalkPlan _ _ _ _ _ _).2.2 1 _ (by cbv)

end MarketFeed
