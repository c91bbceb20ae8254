import TlsKeys.Bytes
import TlsKeys.Text
import TlsKeys.Copyable
import TlsKeys.Failure
import TlsKeys.Region
import TlsKeys.Buffer
import TlsKeys.Call
import TlsKeys.Family
import TlsKeys.Hash.Basic
import TlsKeys.Hash.Word
import TlsKeys.Hash.Md5
import TlsKeys.Hash.Sha1
import TlsKeys.Hash.Digest
import TlsKeys.Hash.Context
import TlsKeys.Hmac.Formula
import TlsKeys.Hmac.Basic
import TlsKeys.Mac
import TlsKeys.Prf.Formula
import TlsKeys.Prf.Expansion
import TlsKeys.Prf.KeyStream
import TlsKeys.Generator.Params
import TlsKeys.Generator.Basic
import TlsKeys.Generator.ByteSource
import TlsKeys.Generator.Script
import TlsKeys.Handshake.Derivation
import TlsKeys.Handshake.Session
import TlsKeys.Proofs.StreamBytes
import TlsKeys.Proofs.StreamPosition
import TlsKeys.Proofs.Output
import TlsKeys.Proofs.Scripts
import TlsKeys.Proofs.History
import TlsKeys.Proofs.Reads
import TlsKeys.Proofs.InForce
import TlsKeys.Proofs.ReadScripts
import TlsKeys.Proofs.Restart
import TlsKeys.Proofs.SessionCalls
import TlsKeys.Proofs.SessionFormulas
import TlsKeys.Proofs.ExpansionCalls
import TlsKeys.Proofs.StreamCalls
import TlsKeys.Proofs.GeneratorCalls
import TlsKeys.Proofs.MacMemory
import TlsKeys.Proofs.Refusals
import TlsKeys.Proofs.Halves
import TlsKeys.Proofs.ExpansionBlocks
import TlsKeys.Generator.Command
import TlsKeys.Proofs.OwnHistory
import TlsKeys.Proofs.Descriptions
import TlsKeys.Proofs.Onlooker
import TlsKeys.Proofs.HashNames
import TlsKeys.Proofs.NamedValues
import TlsKeys.Proofs.Separation
import TlsKeys.Proofs.Guards
import TlsKeys.Proofs.GuardedReads
import TlsKeys.Proofs.Messages
