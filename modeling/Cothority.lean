import Cothority.Suite
import Cothority.Signers
import Cothority.Cosi.Engine
import Cothority.Cosi.Round
import Cothority.Cosi.Verify
import Cothority.Cosi.Checks
import Cothority.Sign.CosiStruct
import Cothority.Sign.Verify
import Cothority.Sign.Merkle
import Cothority.Sign.MerkleSort
import Cothority.Sign.LogCodec
import Cothority.Sign.Messages
import Cothority.Sign.NodeUtils
import Cothority.Conode.Peer
import Cothority.Stamp.Client
import Cothority.Stamp.Runs
import Cothority.RandHound.Insurers
import Cothority.RandHound.InsurersSpec
import Cothority.Swupdate.Verification
