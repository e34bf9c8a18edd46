import ProxyPlatform.Audit.Servers
import ProxyPlatform.Auth.Basic
import ProxyPlatform.Protocol.Audit

/-!
# The audit service

`xAuditService` sends the reports of the authentication service to the audit collectors,
each over the connection to one of them (`AuditConnections`), selected by the account. A
report finds no collector while the list of the collectors is empty; it is counted, and goes
no further.
-/

namespace ProxyPlatform

def cmdBlockAccountReport : ℕ := 0x02002
def cmdAuditReport : ℕ := 0x02003

/-- A call of `TcpReporter.PostMessage`. -/
structure AuditPost where
  connectionId : ℕ
  commandId : ℕ
  message : AuditReport

/-- `xAuditService`. -/
structure AuditService where
  connections : AuditConnections
  noServerReport : ℕ
  posts : List AuditPost

/-- `eBlockAccountReason`, as a byte. -/
def BlockAccountReason.toByte : BlockAccountReason → UInt8
  | .bandwithLimit => 0
  | .connectionLimit => 1
  | .blackListLimit => 2

namespace AuditService

/-- The service after `Init`. -/
def init : AuditService where
  connections := {}
  noServerReport := 0
  posts := []

/-- `OnServerListUpdated`. -/
def onServerListUpdated (acquireId : TcpClientPool → ℕ) (s : AuditService) (call : ServerListCall) :
    Except Fault AuditService :=
  match s.connections.onServerListUpdated acquireId call with
  | .error x => .error x
  | .ok connections => .ok { s with connections := connections }

/-! ## Reports -/

/-- The message for a report of usage. -/
def auditCollect (usageInfo : AuditUsage) : PPAuditCollect where
  globalAuthId := .ofNat usageInfo.authId
  startTimestampMS := .ofNat usageInfo.startTimestampMS
  periodMS := .ofNat usageInfo.periodMS
  totalTcpConnections := usageInfo.totalTcpConnections
  totalTcpBytesFromClient := usageInfo.totalTcpBytesFromClient
  totalTcpBytesToClient := usageInfo.totalTcpBytesToClient
  totalUdpChannels := usageInfo.totalUdpChannels
  totalUdpBytesFromClient := usageInfo.totalUdpBytesFromClient
  totalUdpBytesToClient := usageInfo.totalUdpBytesToClient

/-- The message for a report of a blocked account. -/
def blockAccount (blockAccountInfo : AuditBlockAccount) : PPBlockAccount where
  startTimestampMS := .ofNat blockAccountInfo.startTimestampMS
  globalAuthId := .ofNat blockAccountInfo.authId
  blockReason := blockAccountInfo.reason.toByte
  blockThreshold := blockAccountInfo.threshold
  blockTriggerValue := blockAccountInfo.triggerValue
  blockPeriodMS := .ofNat blockAccountInfo.periodMS

/-- Posting a message to the collector of an account, or counting that there is none. -/
def post (s : AuditService) (authId commandId : ℕ) (message : AuditReport) : AuditService :=
  if s.connections.size = 0 then { s with noServerReport := s.noServerReport + 1 }
  else { s with
    posts := s.posts ++ [{
      connectionId := s.connections.connectionIdList (authId % s.connections.size)
      commandId := commandId
      message := message }] }

/-- `ReportUsage`. -/
def reportUsage (s : AuditService) (usageInfo : AuditUsage) : AuditService :=
  s.post usageInfo.authId cmdAuditReport (.auditCollect (auditCollect usageInfo))

/-- `ReportBlockAccount`. -/
def reportBlockAccount (s : AuditService) (blockAccountInfo : AuditBlockAccount) : AuditService :=
  s.post blockAccountInfo.authId cmdBlockAccountReport (.blockAccount (blockAccount blockAccountInfo))

/-- A call of the authentication service. -/
def call (s : AuditService) : AuditCall → AuditService
  | .reportUsage usageInfo => s.reportUsage usageInfo
  | .reportBlockAccount blockAccountInfo => s.reportBlockAccount blockAccountInfo

end AuditService

/-- The value of a counter in a message. -/
def PPAuditCollect.counter (m : PPAuditCollect) : UsageCounter → UInt64
  | .totalTcpConnections => m.totalTcpConnections
  | .totalTcpBytesFromClient => m.totalTcpBytesFromClient
  | .totalTcpBytesToClient => m.totalTcpBytesToClient
  | .totalUdpChannels => m.totalUdpChannels
  | .totalUdpBytesFromClient => m.totalUdpBytesFromClient
  | .totalUdpBytesToClient => m.totalUdpBytesToClient

theorem counter_auditCollect (u : AuditUsage) (c : UsageCounter) :
    (AuditService.auditCollect u).counter c = u.counter c := by
  cases c <;> rfl

end ProxyPlatform
