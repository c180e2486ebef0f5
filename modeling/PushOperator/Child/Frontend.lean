import PushOperator.Child.Broker
import PushOperator.Child.Database
import PushOperator.Json.Text

/-!
# The server and its proxy

The deployment of the push server with the proxy that users log in at, the account it runs as, the
services inside the cluster and the route from outside.
-/

namespace PushOperator.Child.Frontend

def httpPort : Int32 := 8080

def proxyPort : Int32 := 4180

def metricsPath : String := "/rest/prometheus/metrics"

/-- The paths that may be visited without a login. -/
def openPaths : String :=
  "/rest/sender,/rest/registry/device,/rest/prometheus/metrics,/rest/auth/config"

/-- The labels of the server's pods, which both services select. -/
def podLabels (server : Server) : Dict String :=
  Dict.ofList [("app", server.anyName), ("service", "ups")]

/-- Where the proxy sends users back to after a login: the route, as JSON text. -/
def redirect (server : Server) : String :=
  Json.compact <| Json.ofFields [
    ("kind", .string "OAuthRedirectReference"),
    ("apiVersion", .string "v1"),
    ("reference", Json.ofFields [
      ("kind", .string "Route"),
      ("name", .string (childName server proxy))])]

def serviceAccount (server : Server) : Except Error ServiceAccount := do
  let metadata ← namedMeta server server.anyName (labels server unifiedpush)
  let key := "serviceaccounts.openshift.io/oauth-redirectreference.ups"
  return {
    metadata := { metadata with
      annotations := some (Dict.ofList [(key, redirect server)]) }
    spec := []
    status := () }

/-- A web service in front of the server's pods. -/
def webService (server : Server) (targetPort : Int32) : ServiceSpec where
  selector := some (podLabels server)
  ports := some [{
    name := some "web"
    port := 80
    protocol := some "TCP"
    targetPort := some (.int targetPort) }]

def proxyService (server : Server) : Except Error Service := do
  return {
    metadata := ← objectMeta server proxy
    spec := some (webService server proxyPort)
    status := none }

/-- The service in front of the server itself, which carries the metrics. -/
def serverService (server : Server) : Except Error Service := do
  let labels := (labels server unifiedpush).insertAll
    [("mobile", "enabled"), ("internal", unifiedpush)]
  let metadata ← namedMeta server (childName server unifiedpush) labels
  let key := "org.aerogear.metrics/plain_endpoint"
  return {
    metadata := { metadata with annotations := some (Dict.ofList [(key, metricsPath)]) }
    spec := some (webService server httpPort)
    status := none }

/-- The route to the proxy, encrypted at the edge. -/
def proxyRoute (server : Server) : Except Error Route := do
  return {
    metadata := ← objectMeta server proxy
    spec := {
      host := none
      target := { kind := "Service", name := childName server proxy }
      tls := some { termination := "edge", insecureEdgeTerminationPolicy := some "None" } }
    status := none }

/-- The environment of the server: the connection to its database and, with a broker, the
credentials for it. -/
def environment (server : Server) : List EnvVar :=
  let database := Database.secretName server
  let broker := Broker.secretName server
  [secretEnv "POSTGRES_SERVICE_HOST" database Database.hostKey,
    secretEnv "POSTGRES_SERVICE_PORT" database Database.portKey (some true),
    secretEnv "POSTGRES_USER" database Database.usernameKey,
    secretEnv "POSTGRES_PASSWORD" database Database.passwordKey,
    secretEnv "POSTGRES_DATABASE" database Database.databaseKey] ++
  if server.spec.useMessageBroker then
    [valueEnv "ARTEMIS_USER" Broker.username,
      secretEnv "ARTEMIS_PASSWORD" broker Broker.passwordKey,
      secretEnv "ARTEMIS_SERVICE_HOST" broker Broker.urlKey,
      valueEnv "ARTEMIS_SERVICE_PORT" Broker.port]
  else []

def httpProbe (initialDelaySeconds timeoutSeconds : Int32) : Probe where
  httpGet := some { path := some "/rest/applications", port := .int httpPort }
  initialDelaySeconds := some initialDelaySeconds
  timeoutSeconds := some timeoutSeconds

/-- The container that waits for the database before the server starts. -/
def waitContainer (server : Server) (settings : Settings) : Container where
  name := settings.postgresContainerName ++ "-wait"
  image := some settings.postgresImage
  imagePullPolicy := some "IfNotPresent"
  env := some [secretEnv "POSTGRES_SERVICE_HOST" (Database.secretName server) Database.hostKey]
  command := some [
    "/bin/sh", "-c",
    "source /opt/rh/rh-postgresql96/enable && until pg_isready -h $POSTGRES_SERVICE_HOST; " ++
      "do echo waiting for database; sleep 2; done;"]

def upsContainer (server : Server) (settings : Settings) (resources : ResourceRequirements) :
    Container where
  name := settings.upsContainerName
  image := some settings.upsImage
  imagePullPolicy := some "Always"
  env := some (environment server)
  resources := some resources
  ports := some [{
    name := some settings.upsContainerName
    containerPort := httpPort
    protocol := some "TCP" }]
  readinessProbe := some (httpProbe 15 2)
  livenessProbe := some (httpProbe 120 10)

def proxyContainer (server : Server) (settings : Settings) (resources : ResourceRequirements)
    (cookieSecret : String) : Container where
  name := settings.oauthProxyContainerName
  image := some settings.oauthProxyImage
  imagePullPolicy := some "Always"
  ports := some [{
    name := some "public"
    containerPort := proxyPort
    protocol := some "TCP" }]
  resources := some resources
  args := some [
    "--provider=openshift",
    "--openshift-service-account=" ++ server.anyName,
    "--upstream=http://localhost:" ++ toString httpPort.toInt,
    "--http-address=0.0.0.0:" ++ toString proxyPort.toInt,
    "--skip-auth-regex=" ++ openPaths,
    "--https-address=",
    "--cookie-secret=" ++ cookieSecret]

/-- The deployment of the server. A live one keeps the cookie secret that it was created with. -/
def deployment (server : Server) (settings : Settings) (cookieSecret : String) :
    Except Error Deployment := do
  let upsResources ← upsResources server settings
  let proxyResources ← oauthProxyResources server settings
  let metadata ← namedMeta server server.anyName (podLabels server)
  return {
    metadata
    spec := some {
      replicas := some 1
      selector := { matchLabels := some (podLabels server) }
      strategy := some { type := some "Recreate" }
      template := {
        metadata := some { labels := some (podLabels server) }
        spec := some {
          serviceAccountName := some server.anyName
          initContainers := some [waitContainer server settings]
          containers := [
            upsContainer server settings upsResources,
            proxyContainer server settings proxyResources cookieSecret]
          affinity := server.spec.affinity
          tolerations := tolerations server } } }
    status := none }

end PushOperator.Child.Frontend
