import Zattera.Proof.AccountNames
import Zattera.Proof.AssetText
import Zattera.Proof.AssetWire
import Zattera.Proof.Bandwidth
import Zattera.Proof.BlockLog
import Zattera.Proof.Discussions
import Zattera.Proof.Durability
import Zattera.Proof.Escrow
import Zattera.Proof.FixedString
import Zattera.Proof.Follows
import Zattera.Proof.Majority
import Zattera.Proof.Market
import Zattera.Proof.Merkle
import Zattera.Proof.MinimalSignatures
import Zattera.Proof.Nai
import Zattera.Proof.Ownership
import Zattera.Proof.Prices
import Zattera.Proof.ProducerPay
import Zattera.Proof.Reputations
import Zattera.Proof.Rewinding
import Zattera.Proof.Sessions
import Zattera.Proof.Slots
import Zattera.Proof.SquareRoot
import Zattera.Proof.Synopsis
import Zattera.Proof.VestingFund
import Zattera.Proof.VotingPower
