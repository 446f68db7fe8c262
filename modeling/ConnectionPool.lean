import ConnectionPool.Proofs.Program
import ConnectionPool.Json.Stored
import ConnectionPool.Labels
import ConnectionPool.Proofs.Shutdown
import ConnectionPool.Proofs.Coherence
import ConnectionPool.Proofs.Resumption
import ConnectionPool.Proofs.Reclaim
import ConnectionPool.Proofs.Flow
import ConnectionPool.Proofs.Rebuild
import ConnectionPool.Proofs.Closing
import ConnectionPool.Proofs.Pinging
import ConnectionPool.Proofs.Times
import ConnectionPool.Proofs.Identity
import ConnectionPool.Proofs.Noninterference
import ConnectionPool.Proofs.Independence
import ConnectionPool.Proofs.Handback
import ConnectionPool.Proofs.Patience
import ConnectionPool.Proofs.Exhaustion
import ConnectionPool.Proofs.Opening
import ConnectionPool.Proofs.Agreement
import ConnectionPool.Proofs.Storing
import ConnectionPool.Proofs.Sweeping
