import HashGate.Prelude.Str
import HashGate.Codec.Base64
import HashGate.Codec.Sha256
import HashGate.Codec.Float
import HashGate.Codec.Json
import HashGate.Codec.JsonDecode
import HashGate.Url.Parse
import HashGate.Url.Target
import HashGate.Client
import HashGate.Correctness.Canonical
import HashGate.Correctness.Authorization
import HashGate.Correctness.Target
import HashGate.Verifier
import HashGate.Correctness.EndToEnd
import HashGate.Correctness.Wire
