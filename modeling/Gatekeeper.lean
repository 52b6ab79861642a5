import Gatekeeper.Bytes
import Gatekeeper.Cache.Check
import Gatekeeper.Cache.Entry
import Gatekeeper.Cache.Interleaving
import Gatekeeper.Cache.Store
import Gatekeeper.Decimal.Binary64
import Gatekeeper.Decimal.Shortest
import Gatekeeper.Digest.Hmac
import Gatekeeper.Digest.Sha2
import Gatekeeper.Error
import Gatekeeper.Gateway
import Gatekeeper.Headers
import Gatekeeper.Journal
import Gatekeeper.Json.Decode
import Gatekeeper.Json.Fault
import Gatekeeper.Json.Number
import Gatekeeper.Json.Numeral
import Gatekeeper.Json.Object
import Gatekeeper.Json.Outline
import Gatekeeper.Json.Printer
import Gatekeeper.Json.Reader
import Gatekeeper.Json.Record
import Gatekeeper.Json.Skip
import Gatekeeper.Json.Value
import Gatekeeper.Key.Asn1
import Gatekeeper.Key.Pem
import Gatekeeper.Key.Time
import Gatekeeper.Login.Attempt
import Gatekeeper.Login.Authenticator
import Gatekeeper.Login.Decision
import Gatekeeper.Login.Exchange
import Gatekeeper.Login.Redaction
import Gatekeeper.Login.RequestBody
import Gatekeeper.Login.Run
import Gatekeeper.Proofs.Cache.Checks
import Gatekeeper.Proofs.Cache.Downgrades
import Gatekeeper.Proofs.Cache.EntryLemmas
import Gatekeeper.Proofs.Cache.Lifetimes
import Gatekeeper.Proofs.Cache.Persistence
import Gatekeeper.Proofs.Cache.Provenance
import Gatekeeper.Proofs.Cache.Stages
import Gatekeeper.Proofs.Cache.StoreLemmas
import Gatekeeper.Proofs.Cache.Transparency
import Gatekeeper.Proofs.Decimal.Nearest
import Gatekeeper.Proofs.Gateway.Leeway
import Gatekeeper.Proofs.Json.Compact
import Gatekeeper.Proofs.Json.Extents
import Gatekeeper.Proofs.Json.Moves
import Gatekeeper.Proofs.Json.Objects
import Gatekeeper.Proofs.Json.Printed
import Gatekeeper.Proofs.Json.PrintedRecords
import Gatekeeper.Proofs.Json.Records
import Gatekeeper.Proofs.Json.Scalars
import Gatekeeper.Proofs.Json.Typed
import Gatekeeper.Proofs.Json.Yields
import Gatekeeper.Proofs.Login.Blindness
import Gatekeeper.Proofs.Login.Bodies
import Gatekeeper.Proofs.Login.Decisions
import Gatekeeper.Proofs.Login.Delegation
import Gatekeeper.Proofs.Login.Exposure
import Gatekeeper.Proofs.Login.Journals
import Gatekeeper.Proofs.Login.Redactions
import Gatekeeper.Proofs.Results
import Gatekeeper.Proofs.Text.Base64
import Gatekeeper.Proofs.Token.Acceptance
import Gatekeeper.Proofs.Token.Authenticity
import Gatekeeper.Proofs.Token.Decoding
import Gatekeeper.Proofs.Token.Headers
import Gatekeeper.Proofs.Token.Parts
import Gatekeeper.Proofs.Token.Printing
import Gatekeeper.Proofs.Token.Refusals
import Gatekeeper.Proofs.Token.Restrictions
import Gatekeeper.Proofs.Token.Signing
import Gatekeeper.Provider
import Gatekeeper.Secret
import Gatekeeper.Settings
import Gatekeeper.Signature.Ecdsa
import Gatekeeper.Signature.Eddsa
import Gatekeeper.Signature.Modular
import Gatekeeper.Signature.Rsa
import Gatekeeper.Text.Ascii
import Gatekeeper.Text.Base64
import Gatekeeper.Text.Diagnostic
import Gatekeeper.Text.Quoted
import Gatekeeper.Text.Unprintable
import Gatekeeper.Text.Utf8
import Gatekeeper.Token.Algorithm
import Gatekeeper.Token.Bearer
import Gatekeeper.Token.Claims
import Gatekeeper.Token.Compact
import Gatekeeper.Token.Header
import Gatekeeper.Token.Jwk
import Gatekeeper.Token.Key
import Gatekeeper.Token.Refusal
import Gatekeeper.Token.Restriction
import Gatekeeper.Token.Verifier
import Gatekeeper.Token.VerifierSettings
import Gatekeeper.Url.Basic
import Gatekeeper.Url.Encoding
import Gatekeeper.Url.Host
import Gatekeeper.Url.Parse
import Gatekeeper.Proofs.Cache.Effects
import Gatekeeper.Proofs.Gateway.NotBefore
import Gatekeeper.Proofs.Traffic.Accounting
import Gatekeeper.Proofs.Traffic.Aliases
import Gatekeeper.Proofs.Login.Masking
import Gatekeeper.Proofs.Login.Placeholders
import Gatekeeper.Proofs.Json.Zeros
import Gatekeeper.Proofs.Login.Verdicts
import Gatekeeper.Proofs.Url.Cleaning
import Gatekeeper.Proofs.Url.Authorities
import Gatekeeper.Proofs.Url.Reading
import Gatekeeper.Proofs.Url.Paths
import Gatekeeper.Proofs.Url.Endpoints
import Gatekeeper.Proofs.Text.Mending
import Gatekeeper.Proofs.Token.Presentations
import Gatekeeper.Proofs.Json.Grammar
import Gatekeeper.Proofs.Json.Documents
import Gatekeeper.Proofs.Json.Spellings
import Gatekeeper.Proofs.Json.Locality
import Gatekeeper.Proofs.Json.Tameness
import Gatekeeper.Proofs.Json.WrittenMembers
import Gatekeeper.Proofs.Json.Edits
import Gatekeeper.Proofs.Login.Responses
import Gatekeeper.Proofs.Settings.Leftovers
import Gatekeeper.Proofs.Settings.Respellings
import Gatekeeper.Proofs.Cache.Spans
import Gatekeeper.Proofs.Text.Sextets
import Gatekeeper.Proofs.Token.Fingerprints
