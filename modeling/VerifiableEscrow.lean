import VerifiableEscrow.Assembly
import VerifiableEscrow.Proofs.EncryptionContract
import VerifiableEscrow.Proofs.ExactVerification
import VerifiableEscrow.Proofs.FreshRandomness
import VerifiableEscrow.Proofs.PresentationCourse
import VerifiableEscrow.Proofs.SingleUse
import VerifiableEscrow.Proofs.Soundness
import VerifiableEscrow.Storage
import VerifiableEscrow.Proofs.ElementModule
import VerifiableEscrow.Proofs.ExactCodec
import VerifiableEscrow.Proofs.ExactScalars
import VerifiableEscrow.Proofs.KeyChecks
import VerifiableEscrow.Proofs.Reencoding
import VerifiableEscrow.Proofs.CiphertextContents
import VerifiableEscrow.Proofs.GeneratedArtifacts
import VerifiableEscrow.Proofs.MatchingKey
import VerifiableEscrow.Proofs.MultiScaling
import VerifiableEscrow.Proofs.Commitments
import VerifiableEscrow.Proofs.Spelling
import VerifiableEscrow.Proofs.Noninterference
import VerifiableEscrow.Proofs.WireGrammar
import VerifiableEscrow.Proofs.FileReading
import VerifiableEscrow.Proofs.SavedFiles
import VerifiableEscrow.Proofs.PartialWriting
