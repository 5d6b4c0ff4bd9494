import Silence.Lib.Blocks
import Silence.Lib.CivilDate
import Silence.Lib.CyclicGroup
import Silence.Lib.Effect
import Silence.Lib.FieldFormat
import Silence.Lib.FileStreams
import Silence.Lib.Gf2Poly
import Silence.Lib.KeyValueStore
import Silence.Lib.LexicalPath
import Silence.Lib.OrdMap
import Silence.Lib.PowMod
import Silence.Lib.PrimeField
import Silence.Lib.Radix
import Silence.Lib.JsonText
import Silence.Lib.Reader
import Silence.Lib.Run
import Silence.Lib.ReaderWriter
import Silence.Lib.SerialQueue
import Silence.Lib.SqlInsert
import Silence.Lib.StrongProbablePrime
import Silence.Lib.UniqueKeys
import Silence.Spec.Fips180
import Silence.Spec.Fips197
import Silence.Spec.Pkcs7
import Silence.Crypto.Aes256
import Silence.Crypto.Gf256
import Silence.Crypto.Aes256RoundTrip
import Silence.Crypto.Aes256Padding
import Silence.Crypto.Aes256Fips
import Silence.Crypto.Sha256
import Silence.Crypto.Sha256Compress
import Silence.Crypto.Sha256Blocks
import Silence.Crypto.Sha256Updates
import Silence.Crypto.Sha256Fips
import Silence.Crypto.Sha256Collisions
import Silence.Crypto.CryptoUtils
import Silence.Crypto.ModularPow
import Silence.Crypto.HexNumbers
import Silence.Crypto.Generators
import Silence.Crypto.RandomNumbers
import Silence.Crypto.DsaParameters
import Silence.Crypto.KeyGeneration
import Silence.Crypto.MillerRabin
import Silence.Crypto.SentinelKeys
import Silence.Crypto.Dsa
import Silence.Crypto.ElGamalEncryption
import Silence.Crypto.HybridCryptoSystem
import Silence.Crypto.UserCryptoKeys
import Silence.Crypto.KeySetLogging
import Silence.Server.Framing
import Silence.FileServer.FileServer
import Silence.FileServer.Upload
import Silence.FileServer.Routes
import Silence.FileServer.Download
import Silence.FileServer.Containment
import Silence.FileServer.Concurrency
import Silence.FileServer.Deletion
import Silence.FileServer.SizeLimit
import Silence.FileServer.FileServerClient
import Silence.Server.Json
import Silence.Server.JsonText
import Silence.Server.PendingDelivery
import Silence.Server.Acknowledgments
import Silence.Server.CompletedUploads
import Silence.Server.RequestLoop
import Silence.Server.Dispatch
import Silence.Server.ThreadPool
import Silence.Server.State
import Silence.Server.RequestHandler
import Silence.Server.UserMetadataRepository
import Silence.Server.Registration
import Silence.Server.RequestErrors
import Silence.Server.HandlerSpecs
import Silence.Server.Runs
import Silence.Server.Attribution
import Silence.Server.Sessions
import Silence.Server.Recipients
import Silence.Server.UploadContent
import Silence.Server.Transfers
import Silence.Server.Handover
import Silence.Server.MessageReplies
import Silence.Common.Timestamp
import Silence.Common.Entities
import Silence.Common.UserFile
import Silence.Server.UserAccounts
import Silence.Server.UserRows
import Silence.Server.MessageMetadataRepository
import Silence.Server.MessageTextRepository
import Silence.Client.Client
import Silence.Client.KeySet
import Silence.Client.Reading
import Silence.Client.WriteQueue
import Silence.Client.SendFile
import Silence.Client.ChunkAcknowledgment
import Silence.Client.FileChunks
import Silence.Client.IncomingFiles
import Silence.Client.IncomingPaths
import Silence.Client.MessageErrors
import Silence.Client.ChunkText
import Silence.Client.KeyExchange
import Silence.Client.SignedText
import Silence.Client.AesKeyDelivery
import Silence.Client.UserKeys
import Silence.Client.Identity
import Silence.System.Link
import Silence.System.FileProgress
import Silence.System.FileUpload
import Silence.System.FileDelivery
import Silence.System.Accounts
import Silence.System.Identities
import Silence.System.PublicKeys
import Silence.System.Messages
