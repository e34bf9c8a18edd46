import ProxyPlatform.Base.Codec

/-!
# Audit reports

The four messages that report usage and blocked accounts: `xPP_AuditCollect` and
`xPP_BlockAccount` between the services, `xPPB_AuditUsage` and `xPPB_BlockAccount` to the
backend. Each has its members listed twice, once to write them and once to read them.

The primitives of the stream are a parameter, with their law (`Primitive.read_write`). A
member of the type `eBlockAccountReason` is a byte here: it may hold any.

* `roundTrips_iff`: the messages to the backend read back what they write; those between
  the services never do, as a member that should be read is written.
-/

namespace ProxyPlatform

/-- `xPP_AuditCollect`. -/
structure PPAuditCollect where
  globalAuthId : UInt64
  startTimestampMS : UInt64
  periodMS : UInt64
  totalTcpConnections : UInt64
  totalTcpBytesFromClient : UInt64
  totalTcpBytesToClient : UInt64
  totalUdpChannels : UInt64
  totalUdpBytesFromClient : UInt64
  totalUdpBytesToClient : UInt64

/-- `xPP_BlockAccount`. -/
structure PPBlockAccount where
  startTimestampMS : UInt64
  globalAuthId : UInt64
  blockReason : UInt8
  blockThreshold : UInt64
  blockTriggerValue : UInt64
  blockPeriodMS : UInt32

/-- `xPPB_AuditUsage`. -/
structure PPBAuditUsage where
  timeMs : UInt64
  auditId : UInt64
  tcpConnections : UInt64
  tcpUploadSize : UInt64
  tcpDownloadSize : UInt64
  udpConnections : UInt64
  udpUploadSize : UInt64
  udpDownloadSize : UInt64

/-- `xPPB_BlockAccount`. -/
structure PPBBlockAccount where
  startTimestampMS : UInt64
  auditId : UInt64
  blockType : UInt16
  blockThresholdValue : UInt64
  blockPeriodMS : UInt32
  action : UInt16

variable (X : NumberPrimitives)

namespace PPAuditCollect

def serializeMembers : List (Access PPAuditCollect) :=
  [.W X.u64 globalAuthId,
    .W X.u64 startTimestampMS,
    .W X.u64 periodMS,
    .W X.u64 totalTcpConnections,
    .W X.u64 totalTcpBytesFromClient,
    .W X.u64 totalTcpBytesToClient,
    .W X.u64 totalUdpChannels,
    .W X.u64 totalUdpBytesFromClient,
    .W X.u64 totalUdpBytesToClient]

def deserializeMembers : List (Access PPAuditCollect) :=
  [.R X.u64 fun v m => { m with globalAuthId := v },
    .R X.u64 fun v m => { m with startTimestampMS := v },
    .R X.u64 fun v m => { m with periodMS := v },
    .R X.u64 fun v m => { m with totalTcpConnections := v },
    .R X.u64 fun v m => { m with totalTcpBytesFromClient := v },
    .R X.u64 fun v m => { m with totalTcpBytesToClient := v },
    .W X.u64 totalUdpChannels,
    .R X.u64 fun v m => { m with totalUdpBytesFromClient := v },
    .R X.u64 fun v m => { m with totalUdpBytesToClient := v }]

theorem not_roundTrips (m : PPAuditCollect) :
    ¬RoundTrips (serializeMembers X) (deserializeMembers X) m :=
  not_roundTrips_of_mem (p := X.u64) (g := totalUdpChannels) (by simp [deserializeMembers]) m

end PPAuditCollect

namespace PPBlockAccount

def serializeMembers : List (Access PPBlockAccount) :=
  [.W X.u64 startTimestampMS,
    .W X.u64 globalAuthId,
    .W X.u8 blockReason,
    .W X.u64 blockThreshold,
    .W X.u64 blockTriggerValue,
    .W X.u32 blockPeriodMS]

def deserializeMembers : List (Access PPBlockAccount) :=
  [.R X.u64 fun v m => { m with startTimestampMS := v },
    .R X.u64 fun v m => { m with globalAuthId := v },
    .R X.u8 fun v m => { m with blockReason := v },
    .W X.u64 blockThreshold,
    .R X.u64 fun v m => { m with blockTriggerValue := v },
    .R X.u32 fun v m => { m with blockPeriodMS := v }]

theorem not_roundTrips (m : PPBlockAccount) :
    ¬RoundTrips (serializeMembers X) (deserializeMembers X) m :=
  not_roundTrips_of_mem (p := X.u64) (g := blockThreshold) (by simp [deserializeMembers]) m

end PPBlockAccount

namespace PPBAuditUsage

def serializeMembers : List (Access PPBAuditUsage) :=
  [.W X.u64 timeMs,
    .W X.u64 auditId,
    .W X.u64 tcpConnections,
    .W X.u64 tcpUploadSize,
    .W X.u64 tcpDownloadSize,
    .W X.u64 udpConnections,
    .W X.u64 udpUploadSize,
    .W X.u64 udpDownloadSize]

def deserializeMembers : List (Access PPBAuditUsage) :=
  [.R X.u64 fun v m => { m with timeMs := v },
    .R X.u64 fun v m => { m with auditId := v },
    .R X.u64 fun v m => { m with tcpConnections := v },
    .R X.u64 fun v m => { m with tcpUploadSize := v },
    .R X.u64 fun v m => { m with tcpDownloadSize := v },
    .R X.u64 fun v m => { m with udpConnections := v },
    .R X.u64 fun v m => { m with udpUploadSize := v },
    .R X.u64 fun v m => { m with udpDownloadSize := v }]

/-- The members, in the order they are written and read. -/
def members : List (Member PPBAuditUsage) :=
  [⟨_, X.u64, timeMs, fun v m => { m with timeMs := v }⟩,
    ⟨_, X.u64, auditId, fun v m => { m with auditId := v }⟩,
    ⟨_, X.u64, tcpConnections, fun v m => { m with tcpConnections := v }⟩,
    ⟨_, X.u64, tcpUploadSize, fun v m => { m with tcpUploadSize := v }⟩,
    ⟨_, X.u64, tcpDownloadSize, fun v m => { m with tcpDownloadSize := v }⟩,
    ⟨_, X.u64, udpConnections, fun v m => { m with udpConnections := v }⟩,
    ⟨_, X.u64, udpUploadSize, fun v m => { m with udpUploadSize := v }⟩,
    ⟨_, X.u64, udpDownloadSize, fun v m => { m with udpDownloadSize := v }⟩]

theorem roundTrips (m : PPBAuditUsage) :
    RoundTrips (serializeMembers X) (deserializeMembers X) m :=
  roundTrips_of_members (members X) (fun _ _ => rfl) m

end PPBAuditUsage

namespace PPBBlockAccount

def serializeMembers : List (Access PPBBlockAccount) :=
  [.W X.u64 startTimestampMS,
    .W X.u64 auditId,
    .W X.u16 blockType,
    .W X.u64 blockThresholdValue,
    .W X.u32 blockPeriodMS,
    .W X.u16 action]

def deserializeMembers : List (Access PPBBlockAccount) :=
  [.R X.u64 fun v m => { m with startTimestampMS := v },
    .R X.u64 fun v m => { m with auditId := v },
    .R X.u16 fun v m => { m with blockType := v },
    .R X.u64 fun v m => { m with blockThresholdValue := v },
    .R X.u32 fun v m => { m with blockPeriodMS := v },
    .R X.u16 fun v m => { m with action := v }]

/-- The members, in the order they are written and read. -/
def members : List (Member PPBBlockAccount) :=
  [⟨_, X.u64, startTimestampMS, fun v m => { m with startTimestampMS := v }⟩,
    ⟨_, X.u64, auditId, fun v m => { m with auditId := v }⟩,
    ⟨_, X.u16, blockType, fun v m => { m with blockType := v }⟩,
    ⟨_, X.u64, blockThresholdValue, fun v m => { m with blockThresholdValue := v }⟩,
    ⟨_, X.u32, blockPeriodMS, fun v m => { m with blockPeriodMS := v }⟩,
    ⟨_, X.u16, action, fun v m => { m with action := v }⟩]

theorem roundTrips (m : PPBBlockAccount) :
    RoundTrips (serializeMembers X) (deserializeMembers X) m :=
  roundTrips_of_members (members X) (fun _ _ => rfl) m

end PPBBlockAccount

/-! ## Reports -/

/-- A message that reports usage or a blocked account. -/
inductive AuditReport
  | auditCollect (m : PPAuditCollect)
  | blockAccount (m : PPBlockAccount)
  | auditUsage (m : PPBAuditUsage)
  | backendBlockAccount (m : PPBBlockAccount)

namespace AuditReport

/-- The report is one to the backend. -/
def IsBackend : AuditReport → Prop
  | .auditCollect _ | .blockAccount _ => False
  | .auditUsage _ | .backendBlockAccount _ => True

/-- What reading the report back gives is what was written, and takes all of it. -/
def RoundTrips : AuditReport → Prop
  | .auditCollect m =>
    ProxyPlatform.RoundTrips (PPAuditCollect.serializeMembers X) (PPAuditCollect.deserializeMembers X) m
  | .blockAccount m =>
    ProxyPlatform.RoundTrips (PPBlockAccount.serializeMembers X) (PPBlockAccount.deserializeMembers X) m
  | .auditUsage m =>
    ProxyPlatform.RoundTrips (PPBAuditUsage.serializeMembers X) (PPBAuditUsage.deserializeMembers X) m
  | .backendBlockAccount m =>
    ProxyPlatform.RoundTrips (PPBBlockAccount.serializeMembers X)
      (PPBBlockAccount.deserializeMembers X) m

/-- A report reads back what it wrote if and only if it is one to the backend. -/
theorem roundTrips_iff (r : AuditReport) : r.RoundTrips X ↔ r.IsBackend := by
  cases r with
  | auditCollect m => exact iff_of_false (PPAuditCollect.not_roundTrips X m) id
  | blockAccount m => exact iff_of_false (PPBlockAccount.not_roundTrips X m) id
  | auditUsage m => exact iff_of_true (PPBAuditUsage.roundTrips X m) trivial
  | backendBlockAccount m => exact iff_of_true (PPBBlockAccount.roundTrips X m) trivial

/-- A report of no usage, over a stream of numbers with the lowest byte first. -/
theorem roundTrips_counterexample :
    ¬(auditCollect ⟨7, 1000, 60000, 0, 0, 0, 0, 0, 0⟩).RoundTrips .littleEndian := by
  rintro ⟨_, _, hdes⟩
  exact exec_reader_of_mem (p := NumberPrimitives.littleEndian.u64)
    (g := PPAuditCollect.totalUdpChannels) (by simp [PPAuditCollect.deserializeMembers]) _ _ _
    (hdes ⟨7, 1000, 60000, 0, 0, 0, 0, 0, 0⟩ [])

end AuditReport

end ProxyPlatform
