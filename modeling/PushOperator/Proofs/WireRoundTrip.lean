import PushOperator.Lifecycle
import PushOperator.Proofs.Child.Built
import PushOperator.Proofs.Wire.Resources

/-!
# Resources that are read back

What an object of the operator's own kinds is written as can be read again, and is the same object
then. That holds of every object whose fields fit their schemas, of every object that was read from
some document, whatever else the document said, and of every object that the operator makes: those
it builds, with or without an owner, those whose spec it replaces, and servers in any phase. So
nothing is lost or made up when an object is compared with one that was stored, or when a status is
left unwritten because it is stored already.
-/

namespace PushOperator

/-! ## What can be written and read -/

/-- A spec in which all that is in the form of a schema fits it. Of the operator's own kinds, only
the specs of servers have such fields. -/
def Kind.SpecFits : (k : Kind) → k.Spec → Prop
  | unifiedPushServer, spec => ServerSpec.Fits spec
  | _, _ => True

namespace Object

variable {k : Kind} {o : Object k}

/-- An object in which all that is in the form of a schema fits it. -/
structure Fits (o : Object k) : Prop where
  metadata : o.metadata.Fits
  spec : k.SpecFits o.spec

/-- Objects of the operator's own kinds are read back. -/
theorem Fits.readsBack (h : o.Fits) (hown : k.isBuiltIn = false) : ReadsBack o := by
  obtain ⟨metadata, spec, status⟩ := o
  have hmetadata := h.metadata.readsBack.read
  have hspec := h.spec
  refine ⟨?_, nofun⟩
  cases k with
  | configMap | cronJob | deployment | job | persistentVolumeClaim | secret | service
  | serviceAccount => cases hown
  | unifiedPushServer =>
    have hserver : (ofJson? (toJson spec) : Option ServerSpec) = some spec :=
      (ServerSpec.Fits.readsBack hspec).read
    dsimp only [toJson, ofJson?, ownFields?, Kind.specFields, Kind.specOfFields?,
      Kind.statusFields, Kind.statusOfFields?]
    simp [hmetadata, hserver, hown, Kind.hasStatus]
  | address | addressSpace | deploymentConfig | grafanaDashboard | imageStream | messagingUser
  | prometheusRule | route | serviceMonitor =>
    dsimp only [toJson, ofJson?, ownFields?, Kind.specFields, Kind.specOfFields?,
      Kind.statusFields, Kind.statusOfFields?]
    simp [hmetadata, hown, Kind.hasStatus]

/-- What was read fits the schemas. -/
theorem fits_of_ofJson? {j : Json} (h : ofJson? j = some o) (hown : k.isBuiltIn = false) :
    o.Fits := by
  obtain ⟨f, -, h⟩ := Option.bind_eq_some_iff.1 h
  simp only [hown, Bool.false_eq_true, if_false] at h
  obtain ⟨metadata, hmetadata, h⟩ := Option.bind_eq_some_iff.1 h
  obtain ⟨spec, hspec, h⟩ := Option.bind_eq_some_iff.1 h
  obtain ⟨status, -, h⟩ := Option.bind_eq_some_iff.1 h
  cases h
  obtain ⟨j', hj'⟩ := Fields.exists_of_required hmetadata
  refine ⟨ObjectMeta.fits_of_ofJson? hj', ?_⟩
  cases k with
  | unifiedPushServer =>
    obtain ⟨j'', hj''⟩ := Fields.exists_of_required hspec
    exact ServerSpec.fits_of_ofJson? hj''
  | _ => trivial

end Object

/-! ## What the operator makes -/

/-- The builders of the operator's own kinds, called for any server. -/
inductive Child.OwnBuilder (server : Server) : (k : Kind) → Except Error (Object k) → Prop
  | addressSpace : OwnBuilder server .addressSpace (Broker.addressSpace server)
  | messagingUser (password : String) :
    OwnBuilder server .messagingUser (Broker.messagingUser server password)
  | address (address type plan : String) :
    OwnBuilder server .address (Broker.newAddress server address type plan)
  | route : OwnBuilder server .route (Frontend.proxyRoute server)
  | serviceMonitor : OwnBuilder server .serviceMonitor (Monitoring.serviceMonitor server)
  | prometheusRule : OwnBuilder server .prometheusRule (Monitoring.prometheusRule server)
  | grafanaDashboard : OwnBuilder server .grafanaDashboard (Monitoring.grafanaDashboard server)

/-- The objects that the operator gets to see or makes: what users give it, what it reads, what it
builds, what it does to any of these before writing it, and what the phases of a server make of the
server. -/
inductive Produced : {k : Kind} → Object k → Prop
  | given {k : Kind} {o : Object k} (h : o.Fits) : Produced o
  | read {k : Kind} {j : Json} {o : Object k} (h : ofJson? j = some o) : Produced o
  | built {k : Kind} {server : Server} {e : Except Error (Object k)} {o : Object k}
    (h : Child.OwnBuilder server k e) (he : e = .ok o) : Produced o
  | owned {k : Kind} {o : Object k} (h : Produced o) (owner : OwnerReference) :
    Produced { o with metadata := { o.metadata with ownerReferences := some [owner] } }
  | respecified {k : Kind} {o desired : Object k} (h : Produced o) (hdesired : Produced desired) :
    Produced { o with spec := desired.spec }
  | started {server : Server} (h : Produced server) : Produced server.start
  | failed {server : Server} (h : Produced server) (error : Error) : Produced (server.fail error)
  | succeeded {server : Server} (h : Produced server) (ready : Bool) (children : Registry) :
    Produced (server.succeed ready children)
  | observed {server : Server} (h : Produced server) : Produced server.observe

/-- Builders start from new metadata. -/
theorem Child.OwnBuilder.other_eq_nil {server : Server} {k : Kind} {e : Except Error (Object k)}
    (h : OwnBuilder server k e) {o : Object k} (he : e = .ok o) : o.metadata.other = [] := by
  cases h
  all_goals
    obtain ⟨m, hm, he⟩ := bind_eq_ok.1 he
    obtain ⟨ns, -, rfl⟩ := namedMeta_eq_ok.1 hm
    obtain rfl := pure_eq_ok.1 he
    rfl

/-- No field of the metadata has to be there. -/
theorem fieldsFit_nil : Schema.FieldsFit ObjectMeta.otherSchema [] := by
  simp [ObjectMeta.otherSchema, Schema.opt, Schema.FieldsFit]

theorem Child.OwnBuilder.fits {server : Server} {k : Kind} {e : Except Error (Object k)}
    (h : OwnBuilder server k e) {o : Object k} (he : e = .ok o) : o.Fits := by
  constructor
  · rw [ObjectMeta.Fits, h.other_eq_nil he]
    exact fieldsFit_nil
  · cases h <;> trivial

theorem Server.fits_withStatus {server : Server} (h : server.Fits) (status : ServerStatus) :
    (server.withStatus status).Fits := ⟨h.metadata, h.spec⟩

theorem Produced.fits {k : Kind} {o : Object k} (h : Produced o) (hown : k.isBuiltIn = false) :
    o.Fits := by
  induction h with
  | given h => exact h
  | read h => exact Object.fits_of_ofJson? h hown
  | built h he => exact h.fits he
  | owned h owner ih => exact ⟨(ih hown).metadata, (ih hown).spec⟩
  | respecified h hdesired ih ihdesired => exact ⟨(ih hown).metadata, (ihdesired hown).spec⟩
  | @started server h ih =>
    unfold Server.start
    split
    · exact Server.fits_withStatus (ih hown) _
    · exact ih hown
  | failed h error ih => exact Server.fits_withStatus (ih hown) _
  | succeeded h ready children ih => exact Server.fits_withStatus (ih hown) _
  | observed h ih => exact Server.fits_withStatus (ih hown) _

/-- What a pass builds of the operator's own kinds comes from these builders. -/
theorem produced_of_builds {p : Child.Plan} {k : Kind} {o : Object k} (h : p.Builds k o)
    (hown : k.isBuiltIn = false) : Produced o := by
  obtain ⟨e, hcalls, he⟩ := h
  cases hcalls with
  | addressSpace => exact .built .addressSpace he
  | messagingUser => exact .built (.messagingUser p.brokerPassword) he
  | address hon hentry =>
    unfold Child.Broker.catalogue at hentry
    rcases List.mem_append.1 hentry with hqueue | htopic
    · obtain ⟨address, -, heq⟩ := List.mem_map.1 hqueue
      obtain ⟨rfl, rfl⟩ := Prod.mk.inj heq
      exact .built (.address address "queue" "brokered-queue") he
    · obtain ⟨address, -, heq⟩ := List.mem_map.1 htopic
      obtain ⟨rfl, rfl⟩ := Prod.mk.inj heq
      exact .built (.address address "topic" "brokered-topic") he
  | route => exact .built .route he
  | serviceMonitor => exact .built .serviceMonitor he
  | prometheusRule => exact .built .prometheusRule he
  | grafanaDashboard => exact .built .grafanaDashboard he
  | _ => cases hown

/-! ## There and back -/

/-- **Nothing is lost on the wire, and nothing is made up.** An object of one of the operator's own
kinds that was read from any document can be written and read again: it has the same spec and
status then, and is written as the same document. An object whose fields fit their schemas, or that
the operator makes, is read back as itself. -/
theorem roundTrip_of_own {k : Kind} (hown : k.isBuiltIn = false) :
    (∀ (j : Json) (o : Object k), ofJson? j = some o →
      ∃ again : Object k, ofJson? (toJson o) = some again ∧ again.spec = o.spec ∧
        again.status = o.status ∧ toJson again = toJson o) ∧
    ∀ o : Object k, Produced o → ofJson? (toJson o) = some o := by
  have hproduced (o : Object k) (h : Produced o) : ofJson? (toJson o) = some o :=
    ((h.fits hown).readsBack hown).read
  exact ⟨fun j o h => ⟨o, hproduced o (.read h), rfl, rfl, rfl⟩, hproduced⟩

/-- The kinds this is about. -/
example : Kind.all.filter (fun k => !k.isBuiltIn) = [
    .address, .addressSpace, .deploymentConfig, .grafanaDashboard, .imageStream, .messagingUser,
    .prometheusRule, .route, .serviceMonitor, .unifiedPushServer] := by decide

/-- A server as a user may have written it: fields in any order, some left out and some empty, a
port that is a number, a phase that is blank, and a moment of another zone. -/
def handwrittenServer : Json := .object [
  ("kind", .string "UnifiedPushServer"),
  ("status", .object [("phase", .string ""), ("message", .string "new")]),
  ("spec", .object [
    ("useMessageBroker", .bool true),
    ("database", .object [
      ("port", .int 5432), ("name", .string "ups"), ("user", .string "ups"),
      ("password", .string "secret"), ("host", .string "db.example")]),
    ("databaseSecret", .null),
    ("backups", .array [])]),
  ("metadata", .object [
    ("name", .string "example"),
    ("namespace", .string "push"),
    ("creationTimestamp", .string "2024-02-29T23:30:00.5-01:00")])]

/-- A server that asks for a graphical processor and for certain nodes, and that has failed. -/
def placedServer : Server where
  metadata := {
    name := some "example"
    ns := some "push"
    other := [
      ("creationTimestamp", .string "2024-02-29T23:30:00Z"),
      ("finalizers", .array [.string "backup"])] }
  spec := {
    unifiedPushResourceRequirements := some {
      limits := some (Dict.ofList [("memory", "2Gi")])
      other := [("claims", .array [.object [("name", .string "gpu")]])] }
    affinity := some ⟨[("nodeAffinity", .object [
      ("requiredDuringSchedulingIgnoredDuringExecution", .object [
        ("nodeSelectorTerms", .array [.object [("matchExpressions", .array [.object [
          ("key", .string "zone"), ("operator", .string "In"),
          ("values", .array [.string "a"])]])]])])])]⟩
    tolerations := [{ key := some "gpu" }] }
  status := some { phase := .failing, message := "no node" }

theorem fits_placedServer : placedServer.Fits := by
  refine ⟨(Schema.conformFields_eq_self_iff (by decide)).1 (by decide +kernel), ?_⟩
  have hclaims : Schema.FieldsFit ResourceRequirements.otherSchema
      [("claims", .array [.object [("name", .string "gpu")]])] :=
    (Schema.conformFields_eq_self_iff (by decide)).1 (by decide +kernel)
  constructor
  · rintro r ⟨⟩
    exact hclaims
  · nofun
  · nofun
  · rintro a ⟨⟩
    exact (Schema.conformFields_eq_self_iff (by decide)).1 (by decide +kernel)

theorem roundTrip_of_own_handwritten : ∃ o : Server, ofJson? handwrittenServer = some o ∧
    (∃ again : Server, ofJson? (toJson o) = some again ∧ again.spec = o.spec ∧
      again.status = o.status ∧ toJson again = toJson o) ∧
    ofJson? (toJson o.start.observe) = some o.start.observe ∧
    ofJson? (toJson placedServer) = some placedServer := by
  obtain ⟨o, ho⟩ : ∃ o : Server, ofJson? handwrittenServer = some o :=
    Option.isSome_iff_exists.1 (by decide +kernel)
  obtain ⟨hread, hproduced⟩ := roundTrip_of_own (k := .unifiedPushServer) rfl
  exact ⟨o, ho, hread _ o ho, hproduced _ (.observed (.started (.read ho))),
    hproduced _ (.given fits_placedServer)⟩

end PushOperator
