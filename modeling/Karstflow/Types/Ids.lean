import Karstflow.Types.Account

namespace Karstflow.Types

/-! Well-known addresses. -/

def stakeProgramId : Pubkey :=
  ⟨[0x06, 0xa1, 0xd8, 0x17, 0x91, 0x37, 0x54, 0x2a, 0x98, 0x34, 0x37, 0xbd, 0xfe, 0x2a, 0x7a, 0xb2,
    0x55, 0x7f, 0x53, 0x5c, 0x8a, 0x78, 0x72, 0x2b, 0x68, 0xa4, 0x9d, 0xc0, 0x00, 0x00, 0x00, 0x00], rfl⟩

def configProgramId : Pubkey :=
  ⟨[0x03, 0x06, 0x4a, 0xa3, 0x00, 0x2f, 0x74, 0xdc, 0xc8, 0x6e, 0x43, 0x31, 0x0f, 0x0c, 0x05, 0x2a,
    0xf8, 0xc5, 0xda, 0x27, 0xf6, 0x10, 0x40, 0x19, 0xa3, 0x23, 0xef, 0xa0, 0x00, 0x00, 0x00, 0x00], rfl⟩

def computeBudgetProgramId : Pubkey :=
  ⟨[0x03, 0x06, 0x46, 0x6f, 0xe5, 0x21, 0x17, 0x32, 0xff, 0xec, 0xad, 0xba, 0x72, 0xc3, 0x9b, 0xe7,
    0xbc, 0x8c, 0xe5, 0xbb, 0xc5, 0xf7, 0x12, 0x6b, 0x2c, 0x43, 0x9b, 0x3a, 0x40, 0x00, 0x00, 0x00], rfl⟩

def bpfLoaderProgramId : Pubkey :=
  ⟨[0x02, 0xa8, 0xf6, 0x91, 0x4e, 0x88, 0xa1, 0xb0, 0xe2, 0x10, 0x15, 0x3e, 0xf7, 0x63, 0xae, 0x2b,
    0x00, 0xc2, 0xb9, 0x3d, 0x16, 0xc1, 0x24, 0xd2, 0xc0, 0x53, 0x7a, 0x10, 0x04, 0x80, 0x00, 0x00], rfl⟩

def bpfLoaderV2ProgramId : Pubkey :=
  ⟨[0x02, 0xa8, 0xf6, 0x91, 0x4e, 0x88, 0xa1, 0x6e, 0x39, 0x5a, 0xe1, 0x28, 0x94, 0x8f, 0xfa, 0x69,
    0x56, 0x93, 0x37, 0x68, 0x18, 0xdd, 0x47, 0x43, 0x52, 0x21, 0xf3, 0xc6, 0x00, 0x00, 0x00, 0x00], rfl⟩

def bpfLoaderDeprecatedProgramId : Pubkey :=
  ⟨[0x02, 0xa8, 0xf6, 0x91, 0x4e, 0x88, 0xa1, 0x6b, 0xbd, 0x23, 0x95, 0x85, 0x5f, 0x64, 0x04, 0xd9,
    0xb4, 0xf4, 0x56, 0xb7, 0x82, 0x1b, 0xb0, 0x14, 0x57, 0x49, 0x42, 0x8c, 0x00, 0x00, 0x00, 0x00], rfl⟩

def loaderV4ProgramId : Pubkey :=
  ⟨[0x05, 0x12, 0xb4, 0x11, 0x51, 0x51, 0xe3, 0x7a, 0xad, 0x0a, 0x8b, 0xc5, 0xd3, 0x88, 0x2e, 0x7b,
    0x7f, 0xda, 0x4c, 0xf3, 0xd2, 0xc0, 0x28, 0xc8, 0xcf, 0x83, 0x36, 0x18, 0x00, 0x00, 0x00, 0x00], rfl⟩

def ed25519ProgramId : Pubkey :=
  ⟨[0x03, 0x7d, 0x46, 0xd6, 0x7c, 0x93, 0xfb, 0xbe, 0x12, 0xf9, 0x42, 0x8f, 0x83, 0x8d, 0x40, 0xff,
    0x05, 0x70, 0x74, 0x49, 0x27, 0xf4, 0x8a, 0x64, 0xfc, 0xca, 0x70, 0x44, 0x80, 0x00, 0x00, 0x00], rfl⟩

def secp256k1ProgramId : Pubkey :=
  ⟨[0x04, 0xc6, 0xfc, 0x20, 0xf0, 0x50, 0xcc, 0xf0, 0x55, 0x84, 0xd7, 0x21, 0x1c, 0x9f, 0x8c, 0xf5,
    0x9e, 0xc1, 0x47, 0x85, 0xbb, 0x16, 0x6a, 0x1e, 0x28, 0x30, 0xe8, 0x12, 0x20, 0x00, 0x00, 0x00], rfl⟩

def secp256r1ProgramId : Pubkey :=
  ⟨[0x06, 0x92, 0x0d, 0xec, 0x2f, 0xea, 0x71, 0xb5, 0xb7, 0x23, 0x81, 0x4d, 0x74, 0x2d, 0xa9, 0x03,
    0x1c, 0x83, 0xe7, 0x5f, 0xdb, 0x79, 0x5d, 0x56, 0x8e, 0x75, 0x47, 0x80, 0x20, 0x00, 0x00, 0x00], rfl⟩

def sysvarProgramId : Pubkey :=
  ⟨[0x06, 0xa7, 0xd5, 0x17, 0x18, 0x75, 0xf7, 0x29, 0xc7, 0x3d, 0x93, 0x40, 0x8f, 0x21, 0x61, 0x20,
    0x06, 0x7e, 0xd8, 0x8c, 0x76, 0xe0, 0x8c, 0x28, 0x7f, 0xc1, 0x94, 0x60, 0x00, 0x00, 0x00, 0x00], rfl⟩

def featureProgramId : Pubkey :=
  ⟨[0x03, 0xc0, 0xa0, 0xcd, 0xcb, 0x06, 0xd2, 0xda, 0xef, 0xae, 0x82, 0xd1, 0x6f, 0xee, 0x7a, 0xcf,
    0x61, 0xec, 0x73, 0x7b, 0x23, 0x48, 0x1b, 0x21, 0x94, 0x6a, 0x76, 0x70, 0x00, 0x00, 0x00, 0x00], rfl⟩

def addressLookupTableProgramId : Pubkey :=
  ⟨[0x02, 0x77, 0xa6, 0xaf, 0x97, 0x33, 0x9b, 0x7a, 0xc8, 0x8d, 0x18, 0x92, 0xc9, 0x04, 0x46, 0xf5,
    0x00, 0x02, 0x30, 0x92, 0x66, 0xf6, 0x2e, 0x53, 0xc1, 0x18, 0x24, 0x49, 0x82, 0x00, 0x00, 0x00], rfl⟩

def instructionsSysvarId : Pubkey :=
  ⟨[0x06, 0xa7, 0xd5, 0x17, 0x18, 0x7b, 0xd1, 0x66, 0x35, 0xda, 0xd4, 0x04, 0x55, 0xfd, 0xc2, 0xc0,
    0xc1, 0x24, 0xc6, 0x8f, 0x21, 0x56, 0x75, 0xa5, 0xdb, 0xba, 0xcb, 0x5f, 0x08, 0x00, 0x00, 0x00], rfl⟩

def clockSysvarId : Pubkey :=
  ⟨[0x06, 0xa7, 0xd5, 0x17, 0x18, 0xc7, 0x74, 0xc9, 0x28, 0x56, 0x63, 0x98, 0x69, 0x1d, 0x5e, 0xb6,
    0x8b, 0x5e, 0xb8, 0xa3, 0x9b, 0x4b, 0x6d, 0x5c, 0x73, 0x55, 0x5b, 0x21, 0x00, 0x00, 0x00, 0x00], rfl⟩

def epochScheduleSysvarId : Pubkey :=
  ⟨[0x06, 0xa7, 0xd5, 0x17, 0x18, 0xdc, 0x3f, 0xee, 0x02, 0xd3, 0xe4, 0x7f, 0x01, 0x00, 0xf8, 0xb0,
    0x54, 0xf7, 0x94, 0x2e, 0x60, 0x59, 0x1e, 0x3f, 0x50, 0x87, 0x19, 0xa8, 0x05, 0x00, 0x00, 0x00], rfl⟩

def rentSysvarId : Pubkey :=
  ⟨[0x06, 0xa7, 0xd5, 0x17, 0x19, 0x2c, 0x5c, 0x51, 0x21, 0x8c, 0xc9, 0x4c, 0x3d, 0x4a, 0xf1, 0x7f,
    0x58, 0xda, 0xee, 0x08, 0x9b, 0xa1, 0xfd, 0x44, 0xe3, 0xdb, 0xd9, 0x8a, 0x00, 0x00, 0x00, 0x00], rfl⟩

def slotHashesSysvarId : Pubkey :=
  ⟨[0x06, 0xa7, 0xd5, 0x17, 0x19, 0x2f, 0x0a, 0xaf, 0xc6, 0xf2, 0x65, 0xe3, 0xfb, 0x77, 0xcc, 0x7a,
    0xda, 0x82, 0xc5, 0x29, 0xd0, 0xbe, 0x3b, 0x13, 0x6e, 0x2d, 0x00, 0x55, 0x20, 0x00, 0x00, 0x00], rfl⟩

def slotHistorySysvarId : Pubkey :=
  ⟨[0x06, 0xa7, 0xd5, 0x17, 0x19, 0x2f, 0x0a, 0xaf, 0xc8, 0x75, 0xe2, 0xe1, 0x84, 0x57, 0x7c, 0x50,
    0x69, 0xcf, 0xc8, 0x46, 0x49, 0xe3, 0xeb, 0x92, 0x78, 0x2f, 0x95, 0x8d, 0x48, 0x00, 0x00, 0x00], rfl⟩

def stakeHistorySysvarId : Pubkey :=
  ⟨[0x06, 0xa7, 0xd5, 0x17, 0x19, 0x35, 0x84, 0xd0, 0xfe, 0xed, 0x9b, 0xb3, 0x43, 0x1d, 0x13, 0x20,
    0x6b, 0xe5, 0x44, 0x28, 0x1b, 0x57, 0xb8, 0x56, 0x6c, 0xc5, 0x37, 0x5f, 0xf4, 0x00, 0x00, 0x00], rfl⟩

def recentBlockhashesSysvarId : Pubkey :=
  ⟨[0x06, 0xa7, 0xd5, 0x17, 0x19, 0x2c, 0x56, 0x8e, 0xe0, 0x8a, 0x84, 0x5f, 0x73, 0xd2, 0x97, 0x88,
    0xcf, 0x03, 0x5c, 0x31, 0x45, 0xb2, 0x1a, 0xb3, 0x44, 0xd8, 0x06, 0x2e, 0xa9, 0x40, 0x00, 0x00], rfl⟩

def epochRewardsSysvarId : Pubkey :=
  ⟨[0x06, 0xa7, 0xd5, 0x17, 0x18, 0xdc, 0x3f, 0xee, 0x02, 0xa5, 0x58, 0xbf, 0x83, 0xce, 0x66, 0xe1,
    0x44, 0x42, 0x2a, 0x1c, 0x34, 0x95, 0x0b, 0x27, 0xc1, 0x86, 0x9b, 0x5a, 0x9c, 0x00, 0x00, 0x00], rfl⟩

def lastRestartSlotSysvarId : Pubkey :=
  ⟨[0x06, 0xa7, 0xd5, 0x17, 0x19, 0x06, 0xdd, 0xe1, 0xcd, 0x3f, 0x94, 0x7d, 0xca, 0xb4, 0xc8, 0xf4,
    0xf4, 0xf5, 0x1b, 0xad, 0x0f, 0x98, 0x13, 0xb8, 0x00, 0xd2, 0x89, 0x47, 0x1f, 0xc0, 0x00, 0x00], rfl⟩

/-- The addresses that the sysvar cache answers for. -/
def sysvarIds : List Pubkey :=
  [clockSysvarId, epochScheduleSysvarId, rentSysvarId, slotHashesSysvarId, slotHistorySysvarId,
    stakeHistorySysvarId, recentBlockhashesSysvarId, epochRewardsSysvarId, lastRestartSlotSysvarId]

def incineratorId : Pubkey :=
  ⟨[0x00, 0x33, 0x90, 0x72, 0x8d, 0x34, 0x11, 0x60, 0x79, 0xbd, 0xc9, 0x11, 0xbf, 0xff, 0x00, 0xdb,
    0xd4, 0x4d, 0x2e, 0xcd, 0xcc, 0xf7, 0x9c, 0xa6, 0xe1, 0x00, 0x38, 0xe1, 0x00, 0x00, 0x00, 0x00], rfl⟩

def limitInstructionAccountsFeature : Pubkey :=
  ⟨[0x52, 0xd1, 0xb6, 0xb3, 0x5a, 0x56, 0x28, 0x74, 0x22, 0x0c, 0xa4, 0x14, 0xc4, 0x5b, 0xf8, 0xb5,
    0x41, 0xa9, 0xab, 0xc4, 0xe9, 0x73, 0x7d, 0xf5, 0xc7, 0x62, 0x41, 0x5a, 0x84, 0xd7, 0x5b, 0x33], rfl⟩

def requireStaticNonceAccountFeature : Pubkey :=
  ⟨[0x60, 0x72, 0xd6, 0xf8, 0xba, 0xbf, 0xe3, 0xa9, 0x21, 0x5b, 0x69, 0xfe, 0xc0, 0xa5, 0x38, 0xd5,
    0xb2, 0xf6, 0xdf, 0x47, 0xd8, 0xa8, 0x64, 0xfe, 0x01, 0x57, 0x49, 0x68, 0xd3, 0xf6, 0xb9, 0x84], rfl⟩

def relaxPostExecMinBalanceCheckFeature : Pubkey :=
  ⟨[0x9c, 0x89, 0x9c, 0x85, 0x3f, 0xc6, 0x53, 0x41, 0xf5, 0x7c, 0xe2, 0x11, 0x9c, 0xd8, 0x96, 0x80,
    0xed, 0xb2, 0x37, 0x04, 0xab, 0xfa, 0x57, 0x78, 0xc2, 0x5c, 0x0e, 0xbd, 0xd2, 0xc1, 0xe2, 0x65], rfl⟩

def defineLtdsFeeOnlySemanticsFeature : Pubkey :=
  ⟨[0x04, 0xfb, 0xad, 0x24, 0xc6, 0x0e, 0x2a, 0x90, 0xb8, 0xa3, 0x51, 0xeb, 0x9a, 0xa6, 0x3b, 0x69,
    0x1b, 0xd3, 0x00, 0x63, 0x95, 0xc3, 0xd8, 0xfb, 0xd8, 0xa5, 0xef, 0xd6, 0x92, 0xf1, 0x3f, 0xa0], rfl⟩

def raiseBlockLimitsTo100mFeature : Pubkey :=
  ⟨[0x05, 0xa2, 0xfa, 0x02, 0xbf, 0x06, 0x9b, 0xb5, 0xcf, 0xeb, 0xc7, 0x5c, 0x1d, 0xc9, 0x2a, 0x8b,
    0x6c, 0x88, 0x83, 0x7e, 0xad, 0x76, 0x0e, 0x05, 0x45, 0xf5, 0xa8, 0x63, 0x63, 0x9c, 0xe7, 0xad], rfl⟩

def raiseBlockLimitsTo60mFeature : Pubkey :=
  ⟨[0x56, 0x29, 0xfd, 0x5b, 0x06, 0x1d, 0x78, 0x49, 0xfc, 0x80, 0x45, 0xef, 0xbe, 0x42, 0x3f, 0xbc,
    0x45, 0x8b, 0x26, 0xf1, 0x43, 0x04, 0xd8, 0x27, 0x0e, 0xfb, 0xba, 0x13, 0x22, 0x82, 0x30, 0xc6], rfl⟩

def raiseAccountCuLimitFeature : Pubkey :=
  ⟨[0x0a, 0x79, 0xe3, 0x9b, 0x1a, 0xcc, 0x64, 0x5c, 0x8c, 0xdf, 0x47, 0xad, 0x61, 0x25, 0x63, 0x73,
    0xdd, 0xf4, 0xc7, 0x34, 0x54, 0x57, 0x6d, 0x36, 0x90, 0xbe, 0xfd, 0xd7, 0x75, 0x72, 0x01, 0x7f], rfl⟩

def tokenProgramId : Pubkey :=
  ⟨[0x06, 0xdd, 0xf6, 0xe1, 0xd7, 0x65, 0xa1, 0x93, 0xd9, 0xcb, 0xe1, 0x46, 0xce, 0xeb, 0x79, 0xac,
    0x1c, 0xb4, 0x85, 0xed, 0x5f, 0x5b, 0x37, 0x91, 0x3a, 0x8c, 0xf5, 0x85, 0x7e, 0xff, 0x00, 0xa9], rfl⟩

def slashingProgramId : Pubkey :=
  ⟨[0x06, 0x68, 0x2e, 0x3b, 0xcf, 0xdc, 0xa0, 0x4f, 0xbb, 0x14, 0x0d, 0x47, 0x6e, 0x67, 0x8a, 0x50,
    0xec, 0xa1, 0x8b, 0x09, 0x32, 0xa9, 0x18, 0x79, 0x5f, 0xcf, 0xfe, 0x88, 0x00, 0x00, 0x00, 0x00], rfl⟩

def nativeLoaderProgramId : Pubkey :=
  ⟨[0x05, 0x87, 0x84, 0xbf, 0x14, 0x8b, 0xa4, 0x28, 0x2f, 0xb0, 0x12, 0x57, 0x48, 0x88, 0xa9, 0xf1,
    0x53, 0xa0, 0x7d, 0xad, 0xf7, 0x65, 0xc0, 0x45, 0x5c, 0x9a, 0x97, 0x03, 0x80, 0x00, 0x00, 0x00], rfl⟩

def featureProgramBufferAddress : Pubkey :=
  ⟨[0x20, 0xcd, 0xb5, 0x7b, 0x59, 0x3c, 0x4f, 0xdb, 0x22, 0xce, 0x6e, 0x31, 0x54, 0xc1, 0x3d, 0xf4,
    0x06, 0x95, 0x8d, 0x05, 0x1e, 0xdc, 0x87, 0x01, 0xca, 0x89, 0xf0, 0xf7, 0x0f, 0x47, 0x86, 0xf2], rfl⟩

def slashingProgramBufferAddress : Pubkey :=
  ⟨[0x06, 0x68, 0x2e, 0x32, 0xc0, 0x4c, 0xe7, 0x71, 0xa4, 0x71, 0xc5, 0x09, 0xd0, 0xf0, 0xc6, 0xa8,
    0x30, 0x2b, 0x19, 0x20, 0x7b, 0xc3, 0x8a, 0x70, 0x77, 0x0a, 0xdd, 0xc6, 0x16, 0x48, 0xb6, 0x3f], rfl⟩

def stakeProgramVoteStateV4BufferAddress : Pubkey :=
  ⟨[0x99, 0xb4, 0x7d, 0x7b, 0xec, 0x1a, 0x67, 0x97, 0x02, 0xb0, 0xcd, 0xb9, 0xf0, 0xae, 0x0c, 0xac,
    0x0d, 0x79, 0xd4, 0x08, 0xa8, 0x96, 0xe6, 0x1a, 0xe2, 0x65, 0xf9, 0x8f, 0x23, 0xd4, 0x52, 0x64], rfl⟩

def stakeProgramV5BufferAddress : Pubkey :=
  ⟨[0x2f, 0xf3, 0x5e, 0xcd, 0xa7, 0x53, 0x0a, 0xc9, 0x68, 0xb0, 0x35, 0x89, 0x4e, 0x44, 0x4d, 0xa8,
    0x2b, 0x90, 0x26, 0x9b, 0xe7, 0x12, 0xae, 0x92, 0x4c, 0x6f, 0x7a, 0x1a, 0x3a, 0x9f, 0x7b, 0x8c], rfl⟩

def stakeProgramV51BufferAddress : Pubkey :=
  ⟨[0x0c, 0x0e, 0xd6, 0xde, 0x2b, 0x15, 0xb9, 0x6e, 0xf8, 0xcb, 0x2a, 0xe7, 0xa7, 0x03, 0xd9, 0x2c,
    0x67, 0x72, 0xc2, 0xb7, 0x87, 0x8d, 0x6f, 0xc2, 0x73, 0x1e, 0x7c, 0x30, 0x27, 0x0d, 0x38, 0x2b], rfl⟩

def ptokenProgramBufferAddress : Pubkey :=
  ⟨[0x0c, 0x44, 0xe0, 0x0a, 0xa3, 0xdd, 0x2c, 0xf3, 0xb5, 0x43, 0x4d, 0x54, 0x3f, 0x9e, 0xa7, 0xaf,
    0x85, 0x76, 0x97, 0x50, 0xef, 0xc7, 0x5f, 0x16, 0xad, 0xe0, 0xad, 0x88, 0x59, 0xdf, 0xdc, 0x14], rfl⟩

def migrateFeatureGateProgramToCoreBpfFeature : Pubkey :=
  ⟨[0x36, 0x42, 0x5c, 0x66, 0x18, 0x1f, 0x6b, 0xf4, 0xea, 0x34, 0x18, 0x98, 0xd0, 0xee, 0x57, 0x8e,
    0x44, 0xd3, 0x69, 0xb6, 0x06, 0x1e, 0xe4, 0xea, 0x37, 0x86, 0x08, 0xb4, 0x19, 0xbf, 0xbb, 0x7a], rfl⟩

def enshrineSlashingProgramFeature : Pubkey :=
  ⟨[0x0c, 0xe8, 0xe3, 0x0a, 0x1b, 0x9d, 0x30, 0xc1, 0x5d, 0x98, 0x93, 0xa3, 0x19, 0x40, 0xb4, 0xc8,
    0x7f, 0x92, 0x5b, 0x24, 0x5e, 0x7a, 0xe6, 0xec, 0x6b, 0xe8, 0x87, 0xd5, 0xaa, 0x22, 0xb2, 0x6d], rfl⟩

def voteStateV4Feature : Pubkey :=
  ⟨[0xec, 0xfa, 0x3a, 0xf2, 0xab, 0xa3, 0x21, 0x89, 0x19, 0xf4, 0xc3, 0x4c, 0x05, 0xdf, 0x88, 0xf0,
    0x79, 0x57, 0x48, 0xf1, 0x3e, 0x35, 0x12, 0x0b, 0x7b, 0x56, 0xaa, 0xae, 0x3f, 0xe9, 0x98, 0x58], rfl⟩

def replaceSplTokenWithPTokenFeature : Pubkey :=
  ⟨[0x0c, 0x44, 0xe0, 0x0e, 0x03, 0x6f, 0xc8, 0xa4, 0xc4, 0x7e, 0xdb, 0x02, 0xb0, 0x8d, 0xff, 0x3b,
    0xc2, 0x2f, 0x04, 0x5a, 0x7d, 0x01, 0xa1, 0x00, 0x07, 0x1f, 0x85, 0x5f, 0x21, 0x09, 0x7a, 0x6a], rfl⟩

def upgradeBpfStakeProgramToV5Feature : Pubkey :=
  ⟨[0x06, 0x85, 0xc2, 0x21, 0x7b, 0x6f, 0xe2, 0xfd, 0xf5, 0x4a, 0x2b, 0x39, 0xb4, 0x1c, 0xd6, 0x0e,
    0xa5, 0x0e, 0xf1, 0x99, 0xf3, 0xb3, 0xfe, 0x13, 0x36, 0x50, 0x43, 0x15, 0x2c, 0xbb, 0x3d, 0xf3], rfl⟩

def upgradeBpfStakeProgramToV51Feature : Pubkey :=
  ⟨[0x0c, 0xd3, 0x92, 0xa1, 0x2c, 0xdc, 0xf8, 0xe8, 0x25, 0x59, 0xf2, 0x43, 0xe3, 0x56, 0xbd, 0xed,
    0xb3, 0x1f, 0xcd, 0x3d, 0x89, 0x09, 0x4b, 0xaa, 0x8b, 0x4a, 0x5d, 0x64, 0xd1, 0x85, 0x32, 0x81], rfl⟩

def relaxProgramdataAccountCheckMigrationFeature : Pubkey :=
  ⟨[0x0c, 0xb8, 0x61, 0x19, 0x93, 0x8f, 0xce, 0xa5, 0xf4, 0x30, 0x8b, 0x2d, 0x20, 0xe5, 0xf6, 0xdf,
    0xe7, 0x66, 0x90, 0x8a, 0x06, 0xb4, 0x57, 0xaa, 0xa9, 0x0d, 0x88, 0xb6, 0x2f, 0xd6, 0x4b, 0xa2], rfl⟩

def deprecateRentExemptionThresholdFeature : Pubkey :=
  ⟨[0x0c, 0xb8, 0x30, 0xab, 0xeb, 0x2f, 0x79, 0xf4, 0x53, 0xf9, 0xb1, 0x27, 0x15, 0xb8, 0x75, 0x56,
    0xc4, 0x82, 0x1a, 0x67, 0xe0, 0x03, 0xa8, 0x07, 0x5e, 0x13, 0xa7, 0x58, 0xdd, 0xf7, 0xa2, 0x1d], rfl⟩

def setLamportsPerByteTo6333Feature : Pubkey :=
  ⟨[0x35, 0x0d, 0x9f, 0xc4, 0x1f, 0x1f, 0xd7, 0xf2, 0xdd, 0xce, 0xca, 0xfa, 0x8f, 0x5f, 0xae, 0x76,
    0xd4, 0x93, 0xdf, 0xa5, 0x5c, 0xf2, 0x66, 0x7d, 0x8b, 0x31, 0x01, 0x35, 0x9c, 0x8f, 0x83, 0x5b], rfl⟩

def setLamportsPerByteTo5080Feature : Pubkey :=
  ⟨[0x4a, 0x56, 0xbe, 0x1f, 0x51, 0xef, 0x5c, 0x80, 0xcc, 0x02, 0xc6, 0x46, 0x2b, 0xeb, 0x7d, 0x8c,
    0x22, 0x91, 0xc1, 0x59, 0xdc, 0x1c, 0x2e, 0x08, 0x89, 0x83, 0xdc, 0x4e, 0x47, 0xc9, 0x71, 0xa2], rfl⟩

def setLamportsPerByteTo2575Feature : Pubkey :=
  ⟨[0xdd, 0x53, 0x17, 0x32, 0x99, 0x74, 0x3e, 0x41, 0x0a, 0x19, 0xc8, 0x8e, 0xd1, 0x45, 0xa8, 0x4d,
    0x09, 0x52, 0x91, 0xc3, 0x27, 0xcb, 0x1a, 0x8a, 0x9b, 0x6e, 0xee, 0xaf, 0x46, 0x36, 0x97, 0xd7], rfl⟩

def setLamportsPerByteTo1322Feature : Pubkey :=
  ⟨[0xeb, 0xcd, 0x13, 0x56, 0x4b, 0xd9, 0xe3, 0xb8, 0x77, 0x18, 0x7f, 0x80, 0x49, 0x2a, 0x74, 0x92,
    0x7e, 0x4b, 0xf9, 0x66, 0xd1, 0x95, 0xe7, 0x0e, 0xbc, 0x56, 0xda, 0x25, 0x84, 0x7b, 0x3e, 0x7e], rfl⟩

def setLamportsPerByteTo696Feature : Pubkey :=
  ⟨[0x0b, 0x6a, 0x74, 0x87, 0xee, 0x08, 0x84, 0x07, 0x1d, 0xd4, 0xe9, 0xe7, 0x97, 0x29, 0x50, 0x32,
    0x5d, 0x96, 0x72, 0x7c, 0x04, 0x04, 0x24, 0xe2, 0xc1, 0xf6, 0x4e, 0x90, 0x3a, 0x78, 0xda, 0xfb], rfl⟩

def setLamportsPerByteTo6960Feature : Pubkey :=
  ⟨[0x3d, 0xf4, 0x3b, 0x99, 0x54, 0x61, 0x60, 0x0b, 0xf2, 0x9a, 0xa8, 0xf3, 0xab, 0xd8, 0x14, 0x37,
    0x0d, 0xd1, 0x17, 0xce, 0x0e, 0xc4, 0xd2, 0xcc, 0x9a, 0xb3, 0x43, 0x29, 0xf1, 0xe4, 0xb9, 0xbb], rfl⟩

end Karstflow.Types
