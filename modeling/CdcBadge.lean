import CdcBadge.AlgoAttrCodec
import CdcBadge.Apdu
import CdcBadge.AppletRouting
import CdcBadge.Applets
import CdcBadge.Arenas
import CdcBadge.AssertionRp
import CdcBadge.BackupRestore
import CdcBadge.BerTlv
import CdcBadge.BleChalResp
import CdcBadge.CborItems
import CdcBadge.CborTrees
import CdcBadge.Ccid
import CdcBadge.Cp437
import CdcBadge.CredProtect
import CdcBadge.CredentialCache
import CdcBadge.CredentialRemovals
import CdcBadge.CtaphidCancel
import CdcBadge.CtaphidEviction
import CdcBadge.CtaphidIdentity
import CdcBadge.CtaphidMessages
import CdcBadge.DerSignatures
import CdcBadge.DisabledList
import CdcBadge.FeatureRouting
import CdcBadge.GpgRecvStore
import CdcBadge.HotpCounter
import CdcBadge.HtmlTrees
import CdcBadge.KdfStorage
import CdcBadge.KeyImportReads
import CdcBadge.KeyImportTaken
import CdcBadge.KeyLoss
import CdcBadge.KeyPackets
import CdcBadge.KeyPayload
import CdcBadge.LargeBlobs
import CdcBadge.LockoutTimer
import CdcBadge.MessageBonds
import CdcBadge.MessagePrompts
import CdcBadge.MessageReceive
import CdcBadge.MessageSend
import CdcBadge.MetadataCache
import CdcBadge.ModuleErrors
import CdcBadge.NamedBlobs
import CdcBadge.OathAccess
import CdcBadge.OathTouch
import CdcBadge.OfferFrames
import CdcBadge.OpenPgpChaining
import CdcBadge.OpenPgpReading
import CdcBadge.OpenPgpSelect
import CdcBadge.OtpHidFrames
import CdcBadge.OwnKeyExport
import CdcBadge.PgpArmor
import CdcBadge.PinDuress
import CdcBadge.PinGuesses
import CdcBadge.PivCertificates
import CdcBadge.PivChaining
import CdcBadge.PivIsolation
import CdcBadge.PivKeyLife
import CdcBadge.PivKeyReplacement
import CdcBadge.PivPinEntry
import CdcBadge.PivTlv
import CdcBadge.PluginIsolation
import CdcBadge.PublicKeys
import CdcBadge.RetryAgreement
import CdcBadge.RpHashes
import CdcBadge.RsaKeyStore
import CdcBadge.ScardUsb
import CdcBadge.SelfCertStore
import CdcBadge.SpriteArena
import CdcBadge.SpriteCalls
import CdcBadge.SpriteLayout
import CdcBadge.T1Codec
import CdcBadge.T1Delivery
import CdcBadge.T1Draining
import CdcBadge.T1Reassembly
import CdcBadge.TotpCode
import CdcBadge.TypedRequests
import CdcBadge.U2fResponses
import CdcBadge.UnknownSelects
import CdcBadge.UsbBudget
import CdcBadge.UsbCrSlot
import CdcBadge.UsbServices
